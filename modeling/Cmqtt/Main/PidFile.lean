import Cmqtt.Interleaving
import Cmqtt.Process

/-!
# At most one instance

`main` starts by taking a lock on a file named after the executable: `isInRunning`
opens the file, tries to lock it, and either closes it and gives up, since the
lock is held, or truncates it and writes the pid of the process to it. The
descriptor stays open, and with it the lock, as long as the process lives.

The processes running the program (`instances`) take the steps of `isInRunning`
in any order and are killed at any point; the lock files are their resources. A
lock is POSIX's: a process has it or not, other processes are refused it, and it
is released when its process closes the file or ends.

The invariant of a process and its lock file (`Guarded`) says that it holds the
lock from taking it on, and what is in the file then; any other process leaves
a file that is locked as it is (`LockFile.stable`).
-/

namespace Cmqtt

namespace PidFile

/-- The name of the executable `get_executable_path` finds, given the link
    `/proc/self/exe` if it can be read: empty if it finds none. -/
def getExecutablePath (link : Option CString) : Except Stop CString :=
  match link with
  | none => .ok .empty
  | some link =>
    -- `readlink` fills the buffer without a NUL
    if 2048 ≤ link.bytes.length then .error (.overflow .path)
    else if 47 ∈ link.bytes then strcpy .processname 1024 (link.bytes.rtakeWhile (· != 47))
    else .ok .empty

/-- The path of the lock file of an executable. -/
def lockFilePath (processname : CString) : CString :=
  .ofBytes ((ascii "/tmp/" ++ processname.bytes ++ ascii ".SVR.pid").take 2046)

/-- A lock file: what is in it, and the process holding the lock on it. A file
    that does not exist is empty. -/
structure LockFile where
  content : List UInt8
  holder : Option ℕ
  deriving DecidableEq

/-- Where a process is. -/
inductive Pc
  /-- Before `open`. -/
  | opening
  /-- Before `fcntl`. -/
  | locking
  /-- Before `close`, without the lock. -/
  | closing
  /-- `isInRunning` returned 1. -/
  | refused
  /-- Before `ftruncate`, with the lock. -/
  | truncating
  /-- Before `write`. -/
  | writing
  /-- `isInRunning` returned 0. -/
  | running
  deriving DecidableEq, Repr

/-- A process has taken the lock. -/
def Pc.holds : Pc → Bool
  | .truncating | .writing | .running => true
  | _ => false

/-- A process running the program. -/
structure Proc where
  processname : CString
  pc : Pc
  /-- Whether a step of it has changed what is in the file. -/
  changed : Bool
  deriving DecidableEq

/-- What a process does: a system call, with its outcome, or its end. -/
inductive Syscall
  /-- `open` succeeds, or it fails and the process exits. -/
  | openFile (ok : Bool)
  /-- `fcntl`: an error other than that the lock is held makes the process exit. -/
  | setLock (error : Bool)
  | close
  | ftruncate
  | write
  /-- The process exits or is killed. -/
  | die
  deriving DecidableEq, Repr

/-- The lock of a process on a file is released. -/
def LockFile.release (f : LockFile) (pid : ℕ) : LockFile :=
  { f with holder := if f.holder = some pid then none else f.holder }

/-- Writing at the start of a file. -/
def overwrite (buf content : List UInt8) : List UInt8 := buf ++ content.drop buf.length

/-- A step of a process: where it is next, if it is still alive, and the file. -/
def call (pid : ℕ) (pc : Pc) (f : LockFile) : Syscall → Option (Option Pc × LockFile)
  | .openFile ok =>
    if pc = .opening then
      if ok then some (some .locking, f) else some (none, f.release pid)
    else none
  | .setLock error =>
    if pc = .locking then
      if error then some (none, f.release pid)
      else if f.holder = none ∨ f.holder = some pid then
        some (some .truncating, { f with holder := some pid })
      -- `EACCES` or `EAGAIN`
      else some (some .closing, f)
    else none
  | .close => if pc = .closing then some (some .refused, f.release pid) else none
  | .ftruncate => if pc = .truncating then some (some .writing, { f with content := [] }) else none
  | .write =>
    -- the offset of the descriptor is still zero
    if pc = .writing then
      some (some .running, { f with content := overwrite (decimal pid ++ [0]) f.content })
    else none
  | .die => some (none, f.release pid)

/-- The processes running the program, with the links of their executables. -/
def instances : Processes ℕ CString Proc LockFile (Option CString) Syscall where
  resource pr := lockFilePath pr.processname
  start pid link :=
    -- a pid is an `int`, so that its digits fit `buf[16]` of `isInRunning`
    if 0 < pid ∧ pid < 2 ^ 31 then
      match getExecutablePath link with
      | .ok processname => some ⟨processname, .opening, false⟩
      | .error _ => none
    else none
  step pid pr f c :=
    (call pid pr.pc f c).map fun (pc, f') =>
      (pc.map fun pc => ⟨pr.processname, pc, pr.changed || f'.content != f.content⟩, f')

/-- The machine of all processes, from files that are not locked. -/
def machine : Machine (Processes.State ℕ CString Proc LockFile)
    (Processes.Action ℕ (Option CString) Syscall) :=
  instances.machine fun f => f.holder = none

/-! ## A step of a process -/

variable {pid q : ℕ} {pc : Pc} {pr : Proc} {f f' : LockFile} {c : Syscall} {o : Option Pc}

/-- What a step of a process does. -/
theorem call_cases (h : call pid pc f c = some (o, f')) :
    (o = none ∧ f' = f.release pid) ∨
    (pc = .opening ∧ o = some .locking ∧ f' = f) ∨
    (pc = .locking ∧ (f.holder = none ∨ f.holder = some pid) ∧ o = some .truncating ∧
      f' = { f with holder := some pid }) ∨
    (pc = .locking ∧ f.holder ≠ none ∧ f.holder ≠ some pid ∧ o = some .closing ∧ f' = f) ∨
    (pc = .closing ∧ o = some .refused ∧ f' = f.release pid) ∨
    (pc = .truncating ∧ o = some .writing ∧ f' = { f with content := [] }) ∨
    (pc = .writing ∧ o = some .running ∧
      f' = { f with content := overwrite (decimal pid ++ [0]) f.content }) := by
  rcases c with ok | error | _ | _ | _ | _ <;> simp only [call] at h
  case die => exact .inl (by grind)
  all_goals split_ifs at h <;> grind

/-- A process that ends releases its lock. -/
theorem eq_release_of_call (h : call pid pc f c = some (none, f')) : f' = f.release pid := by
  rcases call_cases h with ⟨-, hf⟩ | ⟨-, ho, -⟩ | ⟨-, -, ho, -⟩ | ⟨-, -, -, ho, -⟩ | ⟨-, ho, -⟩ |
    ⟨-, ho, -⟩ | ⟨-, ho, -⟩
  · exact hf
  all_goals cases ho

/-- A process is refused a lock that another one holds. -/
theorem holder_of_call (h : call pid pc f c = some (some .closing, f')) :
    f.holder ≠ none ∧ f.holder ≠ some pid := by
  rcases call_cases h with ⟨ho, -⟩ | ⟨-, ho, -⟩ | ⟨-, -, ho, -⟩ | ⟨-, hf, hf', -, -⟩ |
    ⟨-, ho, -⟩ | ⟨-, ho, -⟩ | ⟨-, ho, -⟩
  on_goal 4 => exact ⟨hf, hf'⟩
  all_goals cases ho

@[simp] theorem content_release : (f.release pid).content = f.content := rfl

theorem holder_release_ne : (f.release pid).holder ≠ some pid := by
  simp only [LockFile.release]
  split_ifs with h
  · exact nofun
  · exact h

theorem holder_release_of_ne (hne : q ≠ pid) :
    (f.release pid).holder = some q ↔ f.holder = some q := by
  simp only [LockFile.release]
  split_ifs with h <;> simp [h, hne.symm]

/-- What a process knows of its lock file. -/
structure Guarded (pid : ℕ) (pr : Proc) (f : LockFile) : Prop where
  holder : f.holder = some pid ↔ pr.pc.holds
  empty : pr.pc = .writing → f.content = []
  written : pr.pc = .running → f.content = decimal pid ++ [0]
  unchanged : pr.pc.holds = false → pr.changed = false

/-- A step of a process keeps what it knows of its lock file. -/
theorem Guarded.call (h : Guarded pid pr f) (hc : call pid pr.pc f c = some (some pc, f')) :
    Guarded pid ⟨pr.processname, pc, pr.changed || f'.content != f.content⟩ f' := by
  obtain ⟨holder, empty, written, unchanged⟩ := h
  rcases call_cases hc with ⟨ho, -⟩ | ⟨hpc, ho, rfl⟩ | ⟨hpc, hf, ho, rfl⟩ |
    ⟨hpc, hf, hf', ho, rfl⟩ | ⟨hpc, ho, rfl⟩ | ⟨hpc, ho, rfl⟩ | ⟨hpc, ho, rfl⟩
  · cases ho
  -- where the process was tells what it knew
  all_goals
    obtain rfl := Option.some.inj ho
    simp only [hpc, Pc.holds, reduceCtorEq, false_imp_iff, true_imp_iff, iff_true,
      Bool.false_eq_true, iff_false] at holder empty written unchanged
  · exact ⟨by simpa [Pc.holds] using holder, nofun, nofun, by simpa [Pc.holds] using unchanged⟩
  · exact ⟨by simp [Pc.holds], nofun, nofun, by simp [Pc.holds]⟩
  · exact ⟨by simpa [Pc.holds] using holder, nofun, nofun, by simpa [Pc.holds] using unchanged⟩
  · exact ⟨by simpa [Pc.holds] using holder_release_ne, nofun, nofun,
      by simpa [Pc.holds] using unchanged⟩
  · exact ⟨by simpa [Pc.holds] using holder, by simp, nofun, by simp [Pc.holds]⟩
  · exact ⟨by simpa [Pc.holds] using holder, nofun, by simp [overwrite, empty], by simp [Pc.holds]⟩

/-- What a process knows of its lock file stays true when the lock does not
    change for it, and the content does not while it holds the lock. -/
theorem Guarded.frame (h : Guarded pid pr f) (hholder : f'.holder = some pid ↔ f.holder = some pid)
    (hcontent : f.holder = some pid → f'.content = f.content) : Guarded pid pr f' := by
  have hsame : pr.pc.holds → f'.content = f.content := fun hpc => hcontent (h.holder.2 hpc)
  refine ⟨hholder.trans h.holder, ?_, ?_, h.unchanged⟩
  · intro hpc
    rw [hsame (by rw [hpc]; rfl)]
    exact h.empty hpc
  · intro hpc
    rw [hsame (by rw [hpc]; rfl)]
    exact h.written hpc

/-- A process leaves a file that another one has locked as it is, and does not
    lock it for another one. -/
theorem LockFile.stable (hne : q ≠ pid) (hg : Guarded pid pr f)
    (hc : PidFile.call pid pr.pc f c = some (o, f')) :
    (f'.holder = some q ↔ f.holder = some q) ∧ (f.holder = some q → f'.content = f.content) := by
  have hpid : f.holder = some q → f.holder ≠ some pid := fun h h' =>
    hne (Option.some.inj (h.symm.trans h'))
  have hholds := hg.holder
  rcases call_cases hc with ⟨-, rfl⟩ | ⟨-, -, rfl⟩ | ⟨-, hf, -, rfl⟩ |
    ⟨-, -, -, -, rfl⟩ | ⟨-, -, rfl⟩ | ⟨hpc, -, rfl⟩ | ⟨hpc, -, rfl⟩
  · exact ⟨holder_release_of_ne hne, fun _ => rfl⟩
  · exact ⟨Iff.rfl, fun _ => rfl⟩
  · -- the lock is only taken if it is free
    refine ⟨⟨fun h => absurd (Option.some.inj h).symm hne, fun h => ?_⟩, fun _ => rfl⟩
    rcases hf with hf | hf
    · cases hf.symm.trans h
    · exact absurd hf (hpid h)
  · exact ⟨Iff.rfl, fun _ => rfl⟩
  · exact ⟨holder_release_of_ne hne, fun _ => rfl⟩
  -- `ftruncate` and `write` come with the lock
  · refine ⟨Iff.rfl, fun h => absurd (hholds.2 ?_) (hpid h)⟩
    rw [hpc]
    rfl
  · refine ⟨Iff.rfl, fun h => absurd (hholds.2 ?_) (hpid h)⟩
    rw [hpc]
    rfl

/-! ## All processes -/

variable {s s' : Processes.State ℕ CString Proc LockFile}
  {a : Processes.Action ℕ (Option CString) Syscall}

theorem call_of_step {o : Option Proc} (h : instances.step pid pr f c = some (o, f')) :
    ∃ pc, call pid pr.pc f c = some (pc, f') ∧
      o = pc.map fun pc => ⟨pr.processname, pc, pr.changed || f'.content != f.content⟩ := by
  obtain ⟨⟨pc, f''⟩, hc, heq⟩ := Option.map_eq_some_iff.1 h
  obtain ⟨rfl, rfl⟩ := Prod.mk.inj heq
  exact ⟨pc, hc, rfl⟩

theorem pc_of_start {link : Option CString} (h : instances.start pid link = some pr) :
    pr.pc = .opening ∧ pr.changed = false := by
  simp only [instances] at h
  split_ifs at h
  split at h
  · obtain rfl := Option.some.inj h
    exact ⟨rfl, rfl⟩
  · cases h

/-- Every process knows about its lock file, and holds no other lock. -/
theorem guarded (hs : machine.Reachable s) (pid : ℕ) :
    instances.Holds Guarded (fun pid f => f.holder ≠ some pid) s pid := by
  refine Processes.invariant hs ?_ ?_ ?_ ?_ ?_ pid
  · intro i f hf
    simp [hf]
  · intro i link pr f h haway
    obtain ⟨hpc, hchanged⟩ := pc_of_start h
    exact ⟨by simpa [hpc, Pc.holds] using haway, by simp [hpc], by simp [hpc], fun _ => hchanged⟩
  · intro i pr f c pr' f' hg h
    obtain ⟨o, hc, ho⟩ := call_of_step h
    obtain ⟨pc, rfl, rfl⟩ := Option.map_eq_some_iff.1 ho.symm
    exact ⟨rfl, hg.call hc⟩
  · intro i pr f c f' hg h
    obtain ⟨o, hc, ho⟩ := call_of_step h
    obtain rfl := Option.map_eq_none_iff.1 ho.symm
    rw [eq_release_of_call hc]
    exact holder_release_ne
  · intro i j pr f c o f' hne hg h
    obtain ⟨o, hc, -⟩ := call_of_step h
    obtain ⟨hholder, hcontent⟩ := LockFile.stable hne hg hc
    exact ⟨fun pr' hg' => hg'.frame hholder hcontent, fun haway => hholder.not.2 haway⟩

/-- A lock is held by a process that is alive, and is past taking it. -/
theorem exists_of_holder (hs : machine.Reachable s) {path : CString}
    (h : (s.res path).holder = some q) :
    ∃ pr, s.proc q = some pr ∧ lockFilePath pr.processname = path ∧ pr.pc.holds := by
  obtain ⟨hlive, haway⟩ := guarded hs q
  by_contra hno
  refine haway path (fun pr hpr hpath => hno ⟨pr, hpr, hpath, ?_⟩) h
  have hpath : lockFilePath pr.processname = path := hpath
  exact (hlive pr hpr).holder.1 (by simpa [instances, hpath] using h)

/-- A step after which a process is refused: if it was not so before, another
    one that is alive holds the lock. -/
theorem exists_of_closing (hs : machine.Reachable s) (h : machine.step s a = some s')
    (hpr : s'.proc pid = some pr) (hpc : pr.pc = .closing)
    (hnot : ∀ pr₀, s.proc pid = some pr₀ → pr₀.pc ≠ .closing) :
    ∃ q qr, q ≠ pid ∧ s.proc q = some qr ∧
      (s.res (lockFilePath pr.processname)).holder = some q := by
  obtain hsame | ⟨link, pr', hl, hpr'⟩ | ⟨c, pr₀, o, f', hi, hc, rfl⟩ := Processes.proc_cases h pid
  · exact absurd hpc (hnot pr (hsame ▸ hpr))
  · obtain rfl := Option.some.inj (hpr.symm.trans hpr')
    cases hpc.symm.trans (pc_of_start hl).1
  · obtain ⟨o, hc, ho⟩ := call_of_step hc
    obtain ⟨pc, rfl, rfl⟩ := Option.map_eq_some_iff.1 (ho.symm.trans hpr)
    obtain rfl : pc = .closing := hpc
    obtain ⟨hf, hf'⟩ := holder_of_call hc
    obtain ⟨q, hq⟩ := Option.ne_none_iff_exists'.1 hf
    obtain ⟨qr, hqr, -, -⟩ := exists_of_holder hs hq
    exact ⟨q, qr, fun h => hf' (h ▸ hq), hqr, hq⟩

/-- A process takes a lock that no process alive holds. -/
theorem exists_step_setLock (hs : machine.Reachable s) (hpr : s.proc pid = some pr)
    (hpc : pr.pc = .locking) (hfree : ∀ q qr, q ≠ pid → s.proc q = some qr →
      (s.res (lockFilePath pr.processname)).holder ≠ some q) :
    ∃ s' pr', machine.step s (.step pid (.setLock false)) = some s' ∧
      s'.proc pid = some pr' ∧ pr'.pc = .truncating := by
  have hholder : (s.res (lockFilePath pr.processname)).holder = none ∨
      (s.res (lockFilePath pr.processname)).holder = some pid := by
    rcases hq : (s.res (lockFilePath pr.processname)).holder with _ | q
    · exact .inl rfl
    · obtain ⟨qr, hqr, -, -⟩ := exists_of_holder hs hq
      rcases eq_or_ne q pid with rfl | hne
      · exact .inr rfl
      · exact absurd hq (hfree q qr hne hqr)
  have hcall : call pid pr.pc (s.res (lockFilePath pr.processname)) (.setLock false) =
      some (some .truncating, { s.res (lockFilePath pr.processname) with holder := some pid }) := by
    simp only [call, hpc, if_true, Bool.false_eq_true, if_false, if_pos hholder]
  exact ⟨_, _, Processes.next_step hpr (Option.map_eq_some_iff.2 ⟨_, hcall, rfl⟩),
    Function.update_self .., rfl⟩

/-- At most one instance: of the processes of an executable, at most one is past
    `isInRunning`; a start is refused only if another process that is alive
    holds the lock at that moment, and gets the lock if there is none; it leaves
    what is in the file as it is if refused; and the file has the pid of the
    process past `isInRunning`. -/
theorem single_instance (hs : machine.Reachable s) :
    (∀ p q pr qr, s.proc p = some pr → s.proc q = some qr → pr.processname = qr.processname →
      pr.pc = .running → qr.pc = .running → p = q) ∧
    (∀ a s' p pr', machine.step s a = some s' → s'.proc p = some pr' → pr'.pc = .closing →
      (∀ pr, s.proc p = some pr → pr.pc ≠ .closing) →
        ∃ q qr, q ≠ p ∧ s.proc q = some qr ∧
          (s.res (lockFilePath pr'.processname)).holder = some q) ∧
    (∀ p pr, s.proc p = some pr → pr.pc = .locking →
      (∀ q qr, q ≠ p → s.proc q = some qr →
        (s.res (lockFilePath pr.processname)).holder ≠ some q) →
        ∃ s' pr', machine.step s (.step p (.setLock false)) = some s' ∧
          s'.proc p = some pr' ∧ pr'.pc = .truncating) ∧
    (∀ p pr, s.proc p = some pr → pr.pc = .closing ∨ pr.pc = .refused → pr.changed = false) ∧
    (∀ p pr, s.proc p = some pr → pr.pc = .running →
      (s.res (lockFilePath pr.processname)).content = decimal p ++ [0]) := by
  refine ⟨?_, ?_, ?_, ?_, ?_⟩
  · intro p q pr qr hp hq hname hpr hqr
    have h₁ := ((guarded hs p).1 pr hp).holder.2 (by rw [hpr]; rfl)
    have h₂ := ((guarded hs q).1 qr hq).holder.2 (by rw [hqr]; rfl)
    simp only [instances, hname] at h₁ h₂
    exact Option.some.inj (h₁.symm.trans h₂)
  · intro a s' p pr' h hpr' hpc hnot
    exact exists_of_closing hs h hpr' hpc hnot
  · intro p pr hp hpc hfree
    exact exists_step_setLock hs hp hpc hfree
  · intro p pr hp hpc
    refine ((guarded hs p).1 pr hp).unchanged ?_
    rcases hpc with hpc | hpc <;> rw [hpc] <;> rfl
  · intro p pr hp hpc
    exact ((guarded hs p).1 pr hp).written hpc

/-- The process 7 is past `isInRunning`, and the process 8 is refused. -/
theorem single_instance_two :
    ∃ s pr qr, machine.Reachable s ∧ s.proc 7 = some pr ∧ pr.pc = .running ∧
      s.proc 8 = some qr ∧ qr.pc = .closing ∧ qr.changed = false ∧
      (s.res (.lit "/tmp/cmqtt.SVR.pid")).content = ascii "7" ++ [0] := by
  let link := some (CString.lit "/usr/bin/cmqtt")
  let s₀ : Processes.State ℕ CString Proc LockFile := ⟨fun _ => none, fun _ => ⟨[], none⟩⟩
  obtain ⟨s, hs, hp, hq⟩ : ∃ s, machine.exec s₀ [.start 7 link, .start 8 link,
      .step 7 (.openFile true), .step 8 (.openFile true), .step 7 (.setLock false),
      .step 8 (.setLock false), .step 7 .ftruncate, .step 7 .write] = some s ∧
      s.proc 7 = some ⟨.lit "cmqtt", .running, true⟩ ∧
      s.proc 8 = some ⟨.lit "cmqtt", .closing, false⟩ := ⟨_, rfl, rfl, rfl⟩
  have hreach : machine.Reachable s :=
    Machine.reachable_of_exec ⟨fun _ => rfl, fun _ => rfl⟩ hs
  obtain ⟨-, -, -, hchanged, hcontent⟩ := single_instance hreach
  exact ⟨s, _, _, hreach, hp, rfl, hq, rfl, hchanged 8 _ hq (.inl rfl), hcontent 7 _ hp rfl⟩

end PidFile

end Cmqtt
