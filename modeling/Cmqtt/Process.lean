import Cmqtt.CString

/-!
# Outcomes of the program's calls

A call of the program returns a value or stops the process (`Stop`): it leaves
a buffer, follows a null pointer, fails an assertion, exits, or never comes
back. Code that may stop is written in the monad `Except Stop`, so that a
theorem saying that a call returns (`.ok`) also says that none of this happens.

The heap (`Heap`) is the C library's: it serves every request of a reasonable
size and refuses those beyond `PTRDIFF_MAX`.
-/

namespace Cmqtt

/-- The memory of bounded size the program writes to. -/
inductive Buffer
  /-- `tmpLine[1024]` of `GetInitKey`. -/
  | tmpLine
  /-- The static `tmpstr[1024]` of `GetInitKey`. -/
  | tmpstr
  /-- `resstr[128]` of `initTopicConf`. -/
  | resstr
  /-- `topic_name[256]` of `struct cmd_pro`. -/
  | topicName
  /-- The array `initTopicConf` allocates. -/
  | handleTableLocal
  /-- The table of topics and handlers in `core/handle.c`. -/
  | ctrHandleTab
  /-- The 1024 bytes `main` allocates for the path of the configuration. -/
  | configFilePath
  /-- `path[2048]` of `main`, for the path of the executable. -/
  | path
  /-- `processname[1024]` of `main`. -/
  | processname
  /-- `sCmdMap[256]` of `lib/cmd.init.c`. -/
  | sCmdMap
  deriving DecidableEq, Repr

/-- Why a call does not return. -/
inductive Stop
  /-- An access outside of a buffer. -/
  | overflow (b : Buffer)
  /-- An access through a null pointer. -/
  | nullPointer
  /-- A failed assertion. -/
  | abort
  /-- A call of `exit`. -/
  | exit (status : ℤ)
  /-- A loop that never ends. -/
  | hang
  deriving DecidableEq, Repr

/-- `strcpy` into a buffer of `n` bytes. -/
def strcpy (b : Buffer) (n : ℕ) (s : List UInt8) : Except Stop CString :=
  if s.length < n then .ok (.ofBytes s) else .error (.overflow b)

/-- What the program relies on about `malloc` (with a 64-bit `size_t`). -/
structure Heap where
  /-- Whether a request of this many bytes is served. -/
  malloc : ℕ → Bool
  /-- Requests of at most a megabyte are served. -/
  serves : ∀ n ≤ 2 ^ 20, malloc n = true
  /-- Requests above `PTRDIFF_MAX` are refused. -/
  refuses : ∀ n ≥ 2 ^ 63, malloc n = false

/-- A heap without any other limit. -/
def Heap.unlimited : Heap where
  malloc n := n < 2 ^ 63
  serves n hn := by
    simp only [decide_eq_true_eq]
    omega
  refuses n hn := by
    simp only [decide_eq_false_iff_not]
    omega

instance : Inhabited Heap := ⟨Heap.unlimited⟩

/-- A string that is copied is the same string. -/
theorem eq_of_strcpy {b : Buffer} {n : ℕ} {s t : CString} (h : strcpy b n s.bytes = .ok t) :
    t = s := by
  rw [strcpy] at h
  split_ifs at h
  exact (Except.ok.inj h).symm.trans (CString.ofBytes_bytes s)

/-- Calls in sequence return if both do. -/
theorem exists_of_bind_eq_ok {α β : Type} {x : Except Stop α} {f : α → Except Stop β} {b : β}
    (h : x >>= f = .ok b) : ∃ a, x = .ok a ∧ f a = .ok b := by
  rcases x with e | a
  · cases h
  · exact ⟨a, rfl, h⟩

/-- A sequence of calls that all return. -/
theorem mapM_eq_ok {α β : Type} {f : α → Except Stop β} {g : α → β} {l : List α}
    (h : ∀ a ∈ l, f a = .ok (g a)) : l.mapM f = .ok (l.map g) := by
  induction l with
  | nil => rfl
  | cons a l ih =>
    rw [List.mapM_cons, h a List.mem_cons_self, ih fun b hb => h b (List.mem_cons_of_mem _ hb)]
    rfl

/-- A loop that returns makes one more iteration. -/
theorem foldlM_range_succ {σ : Type} {f : σ → ℕ → Except Stop σ} {s t : σ} {k : ℕ}
    (h : (List.range k).foldlM f s = .ok t) : (List.range (k + 1)).foldlM f s = f t k := by
  rw [List.range_succ, List.foldlM_append, h]
  change (f t k >>= pure) = f t k
  rw [bind_pure]

/-- A loop that stopped makes no more iterations. -/
theorem foldlM_range_of_error {σ : Type} {f : σ → ℕ → Except Stop σ} {s : σ} {e : Stop} {k n : ℕ}
    (h : (List.range k).foldlM f s = .error e) (hkn : k ≤ n) :
    (List.range n).foldlM f s = .error e := by
  induction n, hkn using Nat.le_induction with
  | base => exact h
  | succ n _ ih =>
    rw [List.range_succ, List.foldlM_append, ih]
    rfl

theorem exists_of_foldlM_range_succ {σ : Type} {f : σ → ℕ → Except Stop σ} {s t : σ} {k : ℕ}
    (h : (List.range (k + 1)).foldlM f s = .ok t) :
    ∃ u, (List.range k).foldlM f s = .ok u ∧ f u k = .ok t := by
  rw [List.range_succ, List.foldlM_append] at h
  obtain ⟨u, hu, h⟩ := exists_of_bind_eq_ok h
  refine ⟨u, hu, ?_⟩
  simpa using h

end Cmqtt
