import Cmqtt.Machine

/-!
# The heartbeat

Two threads of the program share the clock `timeGloble_g`: `pthTime` updates it
from the system's clock several times a second, and `Hall` serves the program's
logic from it. If `DB_SCAN_ENABLE_g` is set, an iteration of `Hall` samples the
clock into `nowTime`, calls `core_heart`, calls `core_heart_1s` if the second is
not the one it last called it for, and reads the clock again, to warn if the
iteration took more than a second.

A step of `Hall` (`State.hall`) has at most one access to the clock, and the
updates of `pthTime` come between the steps in any number, so that an iteration
takes as long as it likes. The calls of the iterations are recorded:

* the seconds served strictly increase (`Served.sorted`), as the last second
  served is at most the sample, and the sample at most the clock (`Clocked`);
* all samples are served but the one that is not a value of `pthTime`, the zero
  of the clock before its first update (`Served.mem_seconds`);
* the unsigned subtraction of the warning does not wrap (`Clocked.overrun`).
-/

namespace Cmqtt

namespace Heartbeat

/-- The calls `Hall` makes of `core.c`. They have no effect, and `Hall` ignores what they
    return. -/
inductive Call
  | coreHeart (nowTime : UInt32)
  | coreHeart1s (nowTime : UInt32)
  deriving DecidableEq, Repr

/-- The second a call of `core_heart_1s` is for. -/
def Call.second : Call → Option UInt32
  | .coreHeart _ => none
  | .coreHeart1s t => some t

/-- The numbers in the overrun warning, the clock being read anew for each. -/
structure Warning where
  used : UInt32
  timeGloble : UInt32
  nowTime : UInt32
  deriving DecidableEq, Repr

/-- A complete iteration of the loop of `Hall`. -/
structure Iteration where
  nowTime : UInt32
  /-- Whether `pthTime` had updated the clock when it was sampled. -/
  started : Bool
  calls : List Call
  /-- The clock at the check for an overrun. -/
  checked : UInt32
  warning : Option Warning
  deriving DecidableEq, Repr

/-- Where `Hall` is. -/
inductive Pc
  /-- Before the test of `DB_SCAN_ENABLE_g`. -/
  | start
  /-- In the empty loop. -/
  | idle
  /-- Before sampling the clock. -/
  | sampling
  /-- Before `core_heart`. -/
  | heart
  /-- Before the test of `lastHeartTime`. -/
  | second
  /-- Before the check for an overrun. -/
  | checking
  /-- Before the arguments of the warning are evaluated. -/
  | overrun (checked : UInt32)
  /-- Before the warning is printed. -/
  | warning (checked used : UInt32)
  deriving DecidableEq, Repr

/-- `Hall` has sampled the clock in this iteration. -/
def Pc.sampled : Pc → Bool
  | .start | .idle | .sampling => false
  | _ => true

/-- `Hall` is past the test of `lastHeartTime` in this iteration. -/
def Pc.served : Pc → Bool
  | .checking | .overrun _ | .warning _ _ => true
  | _ => false

/-- The clock, the variables of `Hall` and what it has done so far. -/
structure State where
  timeGloble : UInt32
  /-- Whether `pthTime` has updated the clock. -/
  started : Bool
  pc : Pc
  nowTime : UInt32
  lastHeartTime : UInt32
  /-- Whether `pthTime` had updated the clock at the last sample. -/
  sampleStarted : Bool
  /-- The calls of the iteration under way. -/
  calls : List Call
  iterations : List Iteration
  deriving DecidableEq, Repr

/-- The end of an iteration. -/
def State.finish (s : State) (checked : UInt32) (warning : Option Warning) : State :=
  { s with
    iterations := s.iterations ++ [⟨s.nowTime, s.sampleStarted, s.calls, checked, warning⟩]
    calls := []
    pc := .sampling }

/-- A step of `Hall`. -/
def State.hall (dbScanEnable : ℤ) (s : State) : State :=
  match s.pc with
  | .start => { s with pc := if dbScanEnable = 0 then .idle else .sampling }
  | .idle => s
  | .sampling =>
    { s with nowTime := s.timeGloble, sampleStarted := s.started, pc := .heart }
  | .heart => { s with calls := s.calls ++ [.coreHeart s.nowTime], pc := .second }
  | .second =>
    if s.lastHeartTime ≠ s.nowTime then
      { s with
        lastHeartTime := s.nowTime
        calls := s.calls ++ [.coreHeart1s s.nowTime]
        pc := .checking }
    else { s with pc := .checking }
  | .checking =>
    if s.timeGloble - s.nowTime > 1 then { s with pc := .overrun s.timeGloble }
    else s.finish s.timeGloble none
  | .overrun checked => { s with pc := .warning checked (s.timeGloble - s.nowTime) }
  | .warning checked used => s.finish checked (some ⟨used, s.timeGloble, s.nowTime⟩)

/-- An update of the clock by `pthTime`, or a step of `Hall`. -/
inductive Action
  | tick (sec : ℕ)
  | hall
  deriving DecidableEq, Repr

/-- The two threads. The system's clock is positive, fits an `unsigned int` and does not
    go back; the clock of the program starts at zero. -/
def machine (dbScanEnable : ℤ) : Machine State Action where
  init s := s.timeGloble = 0 ∧ s.started = false ∧ s.pc = .start ∧ s.lastHeartTime = 0 ∧
    s.calls = [] ∧ s.iterations = []
  step s
    | .tick sec =>
      if 0 < sec ∧ sec < 2 ^ 32 ∧ s.timeGloble.toNat ≤ sec then
        some { s with timeGloble := .ofNat sec, started := true }
      else none
    | .hall => some (s.hall dbScanEnable)

/-- What a step does. -/
inductive Step (s : State) : State → Prop
  | tick (t : UInt32) : t ≠ 0 → s.timeGloble ≤ t →
      Step s { s with timeGloble := t, started := true }
  | start (pc : Pc) : s.pc = .start → pc = .idle ∨ pc = .sampling → Step s { s with pc := pc }
  | idle : s.pc = .idle → Step s s
  | sample : s.pc = .sampling →
      Step s { s with nowTime := s.timeGloble, sampleStarted := s.started, pc := .heart }
  | heart : s.pc = .heart →
      Step s { s with calls := s.calls ++ [.coreHeart s.nowTime], pc := .second }
  | second : s.pc = .second → s.lastHeartTime ≠ s.nowTime →
      Step s { s with
        lastHeartTime := s.nowTime
        calls := s.calls ++ [.coreHeart1s s.nowTime]
        pc := .checking }
  | sameSecond : s.pc = .second → s.lastHeartTime = s.nowTime →
      Step s { s with pc := .checking }
  | overrun : s.pc = .checking → s.timeGloble - s.nowTime > 1 →
      Step s { s with pc := .overrun s.timeGloble }
  | inTime : s.pc = .checking → ¬s.timeGloble - s.nowTime > 1 →
      Step s (s.finish s.timeGloble none)
  | evaluate (checked : UInt32) : s.pc = .overrun checked →
      Step s { s with pc := .warning checked (s.timeGloble - s.nowTime) }
  | warn (checked used : UInt32) : s.pc = .warning checked used →
      Step s (s.finish checked (some ⟨used, s.timeGloble, s.nowTime⟩))

variable {dbScanEnable : ℤ} {s s' : State} {a : Action}

theorem Step.of_step (h : (machine dbScanEnable).step s a = some s') : Step s s' := by
  cases a with
  | tick sec =>
    simp only [machine] at h
    split_ifs at h with hsec
    obtain ⟨hpos, hlt, hle⟩ := hsec
    obtain rfl := Option.some.inj h
    have hnat : (UInt32.ofNat sec).toNat = sec := UInt32.toNat_ofNat_of_lt' hlt
    refine .tick _ ?_ ?_
    · exact fun h0 => hpos.ne' (by rw [← hnat, h0]; rfl)
    · rwa [UInt32.le_iff_toNat_le, hnat]
  | hall =>
    obtain rfl := Option.some.inj h
    cases hpc : s.pc with
    | start =>
      simp only [State.hall, hpc]
      exact .start _ hpc (by split_ifs <;> simp)
    | idle => simpa only [State.hall, hpc] using .idle hpc
    | sampling => simpa only [State.hall, hpc] using .sample hpc
    | heart => simpa only [State.hall, hpc] using .heart hpc
    | second =>
      simp only [State.hall, hpc]
      split_ifs with hl
      · exact .second hpc hl
      · exact .sameSecond hpc (not_not.1 hl)
    | checking =>
      simp only [State.hall, hpc]
      split_ifs with ht
      · exact .overrun hpc ht
      · exact .inTime hpc ht
    | overrun checked => simpa only [State.hall, hpc] using .evaluate _ hpc
    | warning checked used => simpa only [State.hall, hpc] using .warn _ _ hpc

/-! ## The clock -/

/-- The last second served, the sample and the clock are in this order, and zero is the
    clock before its first update. -/
structure Clocked (s : State) : Prop where
  last_le : s.lastHeartTime ≤ s.timeGloble
  started : s.started = true ↔ s.timeGloble ≠ 0
  last_le_now : s.pc.sampled → s.lastHeartTime ≤ s.nowTime
  now_le : s.pc.sampled → s.nowTime ≤ s.timeGloble
  sampleStarted : s.pc.sampled → (s.sampleStarted = true ↔ s.nowTime ≠ 0)
  last_eq : s.pc.served → s.lastHeartTime = s.nowTime

theorem Clocked.init (h : (machine dbScanEnable).init s) : Clocked s := by
  obtain ⟨htime, hstarted, hpc, hlast, -, -⟩ := h
  constructor <;> simp [htime, hstarted, hpc, hlast, Pc.sampled, Pc.served]

theorem Clocked.step (h : Clocked s) (hst : Step s s') : Clocked s' := by
  obtain ⟨hlast, hstarted, hlastNow, hnow, hsample, heq⟩ := id h
  cases hst with
  | tick t ht hle =>
    -- the clock does not go back
    exact ⟨UInt32.le_trans hlast hle, by simp [ht], hlastNow,
      fun hs => UInt32.le_trans (hnow hs) hle, hsample, heq⟩
  | start pc hpc hpc' =>
    constructor <;> rcases hpc' with rfl | rfl <;> simp_all [Pc.sampled, Pc.served]
  | idle => exact h
  | sample hpc =>
    -- the clock is at least the last second served
    exact ⟨hlast, hstarted, fun _ => hlast, fun _ => UInt32.le_refl _, fun _ => hstarted, nofun⟩
  | heart hpc | second hpc | sameSecond hpc | overrun hpc | inTime hpc | evaluate _ hpc
  | warn _ _ hpc =>
    simp only [hpc, Pc.sampled, Pc.served] at hlastNow hnow hsample heq
    constructor <;> simp_all [State.finish, Pc.sampled, Pc.served]

/-- The subtraction of the check for an overrun does not wrap. -/
theorem Clocked.overrun (h : Clocked s) (hs : s.pc.sampled) :
    s.timeGloble - s.nowTime > 1 ↔ s.nowTime.toNat + 1 < s.timeGloble.toNat := by
  have hle := h.now_le hs
  have hsub := UInt32.toNat_sub_of_le _ _ hle
  rw [UInt32.le_iff_toNat_le] at hle
  rw [gt_iff_lt, UInt32.lt_iff_toNat_lt, hsub, UInt32.toNat_one]
  omega

/-! ## The iterations -/

/-- What an iteration does, given its sample. -/
structure Iteration.Regular (it : Iteration) : Prop where
  calls : it.calls = [.coreHeart it.nowTime] ∨
    it.calls = [.coreHeart it.nowTime, .coreHeart1s it.nowTime]
  warning : it.warning.isSome ↔ it.nowTime.toNat + 1 < it.checked.toNat
  started : it.started = true ↔ it.nowTime ≠ 0

/-- The calls of the iteration under way are those of a regular iteration, so far; a warning
    under way is due. -/
structure Regular (s : State) : Prop where
  calls_unserved : s.pc.served = false →
    s.calls = if s.pc = .second then [.coreHeart s.nowTime] else []
  calls_served : s.pc.served → s.calls = [.coreHeart s.nowTime] ∨
    s.calls = [.coreHeart s.nowTime, .coreHeart1s s.nowTime]
  overrun : ∀ checked, (s.pc = .overrun checked ∨ ∃ used, s.pc = .warning checked used) →
    s.nowTime.toNat + 1 < checked.toNat
  iterations : ∀ it ∈ s.iterations, it.Regular

theorem Regular.init (h : (machine dbScanEnable).init s) : Regular s := by
  obtain ⟨-, -, hpc, -, hcalls, hits⟩ := h
  constructor <;> simp [hpc, hcalls, hits, Pc.served]

theorem Pc.sampled_of_served {pc : Pc} (h : pc.served) : pc.sampled := by
  cases pc <;> simp_all [Pc.sampled, Pc.served]

/-- The end of an iteration past the test of `lastHeartTime`. -/
theorem Regular.finish (h : Regular s) (hc : Clocked s) (hs : s.pc.served) {checked : UInt32}
    {w : Option Warning} (hw : w.isSome ↔ s.nowTime.toNat + 1 < checked.toNat) :
    Regular (s.finish checked w) := by
  refine ⟨fun _ => rfl, nofun, by simp [State.finish], ?_⟩
  simp only [State.finish, List.forall_mem_append, List.forall_mem_singleton]
  exact ⟨h.iterations, h.calls_served hs, hw, hc.sampleStarted (Pc.sampled_of_served hs)⟩

theorem Regular.step (h : Regular s) (hc : Clocked s) (hst : Step s s') : Regular s' := by
  obtain ⟨hunserved, hserved, hdue, hits⟩ := id h
  cases hst with
  | tick => exact ⟨hunserved, hserved, hdue, hits⟩
  | start pc hpc hpc' => constructor <;> rcases hpc' with rfl | rfl <;> simp_all [Pc.served]
  | idle => exact h
  | sample hpc | heart hpc | second hpc | sameSecond hpc | evaluate _ hpc =>
    simp only [hpc, Pc.served] at hunserved hserved hdue
    constructor <;> simp_all [Pc.served]
  | overrun hpc hover =>
    have hnow := (hc.overrun (by rw [hpc]; rfl)).1 hover
    exact ⟨nofun, fun _ => hserved (by rw [hpc]; rfl), by simp [hnow], hits⟩
  | inTime hpc hover =>
    have hnow := (hc.overrun (by rw [hpc]; rfl)).not.1 hover
    exact h.finish hc (by rw [hpc]; rfl) (by simpa using hnow)
  | warn checked used hpc =>
    exact h.finish hc (by rw [hpc]; rfl) (by simpa using hdue _ (.inr ⟨_, hpc⟩))

/-! ## The seconds served -/

/-- The arguments of the calls of `core_heart_1s`. -/
def seconds (calls : List Call) : List UInt32 := calls.filterMap Call.second

/-- The seconds served, in order. -/
def State.seconds (s : State) : List UInt32 :=
  Heartbeat.seconds (s.iterations.flatMap (·.calls) ++ s.calls)

/-- A value of `pthTime` that was sampled, by a complete iteration or by the one under way,
    if that is past the test of `lastHeartTime`. -/
def State.Sampled (s : State) (t : UInt32) : Prop :=
  (∃ it ∈ s.iterations, it.started ∧ it.nowTime = t) ∨
    s.pc.served ∧ s.sampleStarted ∧ s.nowTime = t

/-- The seconds served are the values sampled, up to the last one. -/
structure Served (s : State) : Prop where
  sorted : s.seconds.Pairwise (· < ·)
  le_last : ∀ t ∈ s.seconds, t ≤ s.lastHeartTime
  last_mem : s.lastHeartTime = 0 ∨ s.lastHeartTime ∈ s.seconds
  mem_seconds : ∀ t, t ∈ s.seconds ↔ s.Sampled t

theorem Served.init (h : (machine dbScanEnable).init s) : Served s := by
  obtain ⟨-, -, hpc, hlast, hcalls, hits⟩ := h
  constructor <;>
    simp [State.seconds, State.Sampled, seconds, hpc, hcalls, hits, hlast, Pc.served]

/-- A step that serves no second. -/
theorem Served.of_seconds_eq (h : Served s) (hsec : s'.seconds = s.seconds)
    (hlast : s'.lastHeartTime = s.lastHeartTime) (hs : ∀ t, s'.Sampled t ↔ s.Sampled t) :
    Served s' := by
  obtain ⟨hsorted, hle, hmem, hiff⟩ := h
  constructor
  all_goals simp only [hsec, hlast, hs]
  · exact hsorted
  · exact hle
  · exact hmem
  · exact hiff

/-- At the end of an iteration its sample is that of a complete iteration. -/
theorem Served.finish (h : Served s) (hs : s.pc.served) (checked : UInt32)
    (w : Option Warning) : Served (s.finish checked w) := by
  refine h.of_seconds_eq ?_ rfl fun t => ?_
  · simp [State.finish, State.seconds]
  · simp only [State.Sampled, hs]
    simp [State.finish, Pc.served, or_and_right, exists_or]

theorem Served.step (h : Served s) (hc : Clocked s) (hst : Step s s') : Served s' := by
  cases hst with
  | tick => exact h.of_seconds_eq rfl rfl fun _ => .rfl
  | idle => exact h
  | start pc hpc hpc' =>
    refine h.of_seconds_eq rfl rfl fun t => ?_
    rcases hpc' with rfl | rfl <;> simp [State.Sampled, hpc, Pc.served]
  | sample hpc | overrun hpc | evaluate _ hpc =>
    refine h.of_seconds_eq rfl rfl fun t => ?_
    simp [State.Sampled, hpc, Pc.served]
  | heart hpc =>
    refine h.of_seconds_eq ?_ rfl fun t => ?_
    · simp [State.seconds, seconds, Call.second]
    · simp [State.Sampled, hpc, Pc.served]
  | second hpc hne =>
    -- the sample is after the last second served, and so after all of them
    have hlt : s.lastHeartTime < s.nowTime :=
      UInt32.lt_of_le_of_ne (hc.last_le_now (by rw [hpc]; rfl)) hne
    have hnow : s.nowTime ≠ 0 := fun h0 => UInt32.not_lt_zero (h0 ▸ hlt)
    have hstarted : s.sampleStarted := (hc.sampleStarted (by rw [hpc]; rfl)).2 hnow
    have hsec : State.seconds { s with
        lastHeartTime := s.nowTime
        calls := s.calls ++ [.coreHeart1s s.nowTime]
        pc := .checking } = s.seconds ++ [s.nowTime] := by
      simp [State.seconds, seconds, Call.second]
    constructor
    all_goals rw [hsec]
    · refine List.pairwise_append.2 ⟨h.sorted, List.pairwise_singleton _ _, fun t ht u hu => ?_⟩
      obtain rfl := List.mem_singleton.1 hu
      exact UInt32.lt_of_le_of_lt (h.le_last t ht) hlt
    · simp only [List.forall_mem_append, List.forall_mem_singleton]
      exact ⟨fun t ht => UInt32.le_of_lt (UInt32.lt_of_le_of_lt (h.le_last t ht) hlt),
        UInt32.le_refl _⟩
    · exact .inr (by simp)
    · intro t
      rw [List.mem_append, List.mem_singleton, h.mem_seconds t, eq_comm (a := t)]
      simp [State.Sampled, hpc, Pc.served, hstarted]
  | sameSecond hpc heq =>
    refine h.of_seconds_eq rfl rfl fun t => ?_
    have hlast := heq ▸ h.last_mem
    simp only [State.Sampled, hpc, Pc.served, Bool.false_eq_true, false_and, or_false, true_and,
      or_iff_left_iff_imp]
    rintro ⟨hstarted, rfl⟩
    have hnow : s.nowTime ≠ 0 := (hc.sampleStarted (by rw [hpc]; rfl)).1 hstarted
    simpa [State.Sampled, hpc, Pc.served] using (h.mem_seconds _).1 (hlast.resolve_left hnow)
  | inTime hpc => exact h.finish (by rw [hpc]; rfl) _ _
  | warn _ _ hpc => exact h.finish (by rw [hpc]; rfl) _ _

theorem served_reachable (hs : (machine dbScanEnable).Reachable s) :
    Clocked s ∧ Regular s ∧ Served s := by
  refine hs.invariant (P := fun s => Clocked s ∧ Regular s ∧ Served s)
    (fun s h => ⟨.init h, .init h, .init h⟩) ?_
  rintro s a s' - ⟨hc, hr, h⟩ hst
  have hst := Step.of_step hst
  exact ⟨hc.step hst, hr.step hc hst, h.step hc hst⟩

theorem Regular.calls_prefix (h : Regular s) :
    s.calls <+: [.coreHeart s.nowTime, .coreHeart1s s.nowTime] := by
  cases hs : s.pc.served with
  | false =>
    rw [h.calls_unserved hs]
    split_ifs <;> simp
  | true => rcases h.calls_served hs with hcalls | hcalls <;> simp [hcalls]

/-- Every second is served once, in order, if `pthTime` has published it and `Hall` has
    sampled it, right after the heartbeat of the same iteration; an iteration warns if and
    only if the clock is more than a second past its sample at the check. -/
theorem heartbeat (hs : (machine dbScanEnable).Reachable s) :
    s.seconds.Pairwise (· < ·) ∧ (∀ t, t ∈ s.seconds ↔ s.Sampled t) ∧
      s.calls <+: [.coreHeart s.nowTime, .coreHeart1s s.nowTime] ∧
      ∀ it ∈ s.iterations, it.Regular := by
  obtain ⟨-, hr, h⟩ := served_reachable hs
  exact ⟨h.sorted, h.mem_seconds, hr.calls_prefix, hr.iterations⟩

/-- The first state, with zero for what is in `nowTime`. -/
def State.begin : State := ⟨0, false, .start, 0, 0, false, [], []⟩

theorem init_begin : (machine dbScanEnable).init .begin := ⟨rfl, rfl, rfl, rfl, rfl, rfl⟩

/-- Three iterations, the second of which serves no second and overruns. -/
theorem heartbeat_overrun : ∃ s,
    (machine 1).exec .begin [.tick 7, .hall, .hall, .hall, .hall, .hall, .hall, .hall, .tick 8,
      .hall, .tick 9, .hall, .hall, .tick 11, .hall, .hall, .hall, .hall, .hall] = some s ∧
    s.seconds = [7, 11] ∧ s.iterations.map (·.warning) = [none, some ⟨2, 11, 7⟩, none] ∧
    s.seconds.Pairwise (· < ·) ∧ (∀ t, t ∈ s.seconds ↔ s.Sampled t) ∧
    s.calls <+: [.coreHeart s.nowTime, .coreHeart1s s.nowTime] ∧
    ∀ it ∈ s.iterations, it.Regular := by
  obtain ⟨s, hs, hsec, hwarn⟩ : ∃ s,
      (machine 1).exec .begin [.tick 7, .hall, .hall, .hall, .hall, .hall, .hall, .hall, .tick 8,
        .hall, .tick 9, .hall, .hall, .tick 11, .hall, .hall, .hall, .hall, .hall] = some s ∧
      s.seconds = [7, 11] ∧ s.iterations.map (·.warning) = [none, some ⟨2, 11, 7⟩, none] :=
    ⟨_, rfl, rfl, rfl⟩
  exact ⟨s, hs, hsec, hwarn, heartbeat (Machine.reachable_of_exec init_begin hs)⟩

/-- An iteration before the first update of the clock samples zero, which is not served. -/
theorem zero_not_served : ¬∀ s, (machine 1).Reachable s → s.pc = .sampling →
    ∀ t, t ∈ s.seconds ↔ t ∈ s.iterations.map (·.nowTime) := by
  intro hall
  obtain ⟨s, hs, hpc, hnow, hsec⟩ : ∃ s,
      (machine 1).exec .begin [.hall, .hall, .hall, .hall, .hall] = some s ∧
      s.pc = .sampling ∧ s.iterations.map (·.nowTime) = [0] ∧ s.seconds = [] :=
    ⟨_, rfl, rfl, rfl, rfl⟩
  have h := hall s (Machine.reachable_of_exec init_begin hs) hpc 0
  simp [hnow, hsec] at h

end Heartbeat

end Cmqtt
