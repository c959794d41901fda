import Mathlib.Tactic

/-!
# Identifiers

How a request gets its identifier (`MQTTAsync_assignMsgId`): the identifiers
after the last one are tried in turn, from 65535 on with 1, until one is found
that is not in use, or the last one comes up again.

`assignMsgId_iff`: the first one that is not in use is found, and none if all but
the last one are in use; as long as no identifier has been given out, the loop
does not end if all of them are in use.
-/

namespace Cmqtt

namespace MQTTAsync

/-- `MAX_MSG_ID`. -/
def maxMsgId : ℕ := 65535

/-- The identifier that is tried after another one. -/
def nextMsgId (msgid : ℕ) : ℕ := if msgid = maxMsgId then 1 else msgid + 1

variable (inUse : ℕ → Bool) (startMsgid : ℕ)

/-- The loop of `MQTTAsync_assignMsgId`, if it ends within so many rounds. -/
def assignLoop : ℕ → ℕ → Option ℕ
  | 0, _ => none
  | fuel + 1, msgid =>
    if !inUse msgid then some msgid
    else if nextMsgId msgid = startMsgid then some 0
    else assignLoop fuel (nextMsgId msgid)

/-- `MQTTAsync_assignMsgId`, after the identifier `startMsgid`. -/
def assignMsgId (fuel : ℕ) : Option ℕ := assignLoop inUse startMsgid fuel (nextMsgId startMsgid)

/-- The identifiers in the order they are tried. -/
def candidate (k : ℕ) : ℕ := (startMsgid + k) % maxMsgId + 1

/-- All identifiers that are tried are in use, and none is given out. -/
def Exhausted : Prop :=
  startMsgid ≠ 0 ∧ ∀ i, 0 < i → i ≤ maxMsgId → i ≠ startMsgid → inUse i = true

/-- The `k`-th identifier is the first that is not in use. -/
def FirstFree (k : ℕ) : Prop :=
  k < maxMsgId ∧ inUse (candidate startMsgid k) = false ∧ ∀ j < k, inUse (candidate startMsgid j) = true

variable {inUse : ℕ → Bool} {startMsgid : ℕ}

theorem nextMsgId_start (h : startMsgid ≤ maxMsgId) : nextMsgId startMsgid = candidate startMsgid 0 := by
  rw [nextMsgId, candidate, maxMsgId] at *
  split_ifs <;> omega

theorem nextMsgId_candidate (k : ℕ) :
    nextMsgId (candidate startMsgid k) = candidate startMsgid (k + 1) := by
  rw [nextMsgId]
  split_ifs with h <;> simp only [candidate, maxMsgId] at h ⊢ <;> omega

/-- The last identifier comes up when all others have been tried, unless there is none yet. -/
theorem candidate_eq_start_iff {k : ℕ} (h : startMsgid ≤ maxMsgId) (hk : k < maxMsgId) :
    candidate startMsgid k = startMsgid ↔ startMsgid ≠ 0 ∧ k + 1 = maxMsgId := by
  rw [candidate, maxMsgId] at *
  omega

theorem exists_candidate {i : ℕ} (hpos : 0 < i) (hi : i ≤ maxMsgId) (h : startMsgid ≤ maxMsgId) :
    ∃ k < maxMsgId, candidate startMsgid k = i := by
  rw [maxMsgId] at *
  refine ⟨(i + 65535 - 1 - startMsgid) % 65535, Nat.mod_lt _ (by decide), ?_⟩
  rw [candidate, maxMsgId]
  omega

/-- An identifier that is not in use is reached, if the last one does not come up before. -/
theorem assignLoop_of_free {fuel k n : ℕ} (hfuel : n < fuel)
    (hfree : inUse (candidate startMsgid (k + n)) = false)
    (hbefore : ∀ j < n, inUse (candidate startMsgid (k + j)) = true ∧
      candidate startMsgid (k + j + 1) ≠ startMsgid) :
    assignLoop inUse startMsgid fuel (candidate startMsgid k) =
      some (candidate startMsgid (k + n)) := by
  induction n generalizing fuel k with
  | zero =>
    obtain ⟨fuel, rfl⟩ := Nat.exists_eq_succ_of_ne_zero hfuel.ne'
    rw [Nat.add_zero] at hfree ⊢
    rw [assignLoop, hfree]
    rfl
  | succ n ih =>
    obtain ⟨fuel, rfl⟩ := Nat.exists_eq_succ_of_ne_zero (Nat.ne_of_gt (Nat.zero_lt_of_lt hfuel))
    obtain ⟨hused, hne⟩ := hbefore 0 n.succ_pos
    rw [Nat.add_zero] at hused hne
    have hshift : ∀ j, k + 1 + j = k + (j + 1) := by omega
    have hrest := ih (k := k + 1) (Nat.lt_of_succ_lt_succ hfuel) (by rwa [hshift]) fun j hj => by
      rw [hshift]
      exact hbefore (j + 1) (Nat.succ_lt_succ hj)
    rw [assignLoop, hused, nextMsgId_candidate, if_neg (by decide), if_neg hne, hrest, hshift]

/-- The last identifier comes up, and all before it are in use. -/
theorem assignLoop_of_used {fuel k n : ℕ} (hfuel : n < fuel)
    (hstart : candidate startMsgid (k + n + 1) = startMsgid)
    (hused : ∀ j ≤ n, inUse (candidate startMsgid (k + j)) = true)
    (hbefore : ∀ j < n, candidate startMsgid (k + j + 1) ≠ startMsgid) :
    assignLoop inUse startMsgid fuel (candidate startMsgid k) = some 0 := by
  induction n generalizing fuel k with
  | zero =>
    obtain ⟨fuel, rfl⟩ := Nat.exists_eq_succ_of_ne_zero hfuel.ne'
    rw [assignLoop, show inUse (candidate startMsgid k) = true from hused 0 le_rfl,
      nextMsgId_candidate, if_neg (by decide), if_pos hstart]
  | succ n ih =>
    obtain ⟨fuel, rfl⟩ := Nat.exists_eq_succ_of_ne_zero (Nat.ne_of_gt (Nat.zero_lt_of_lt hfuel))
    have hshift : ∀ j, k + 1 + j = k + (j + 1) := by omega
    have hrest := ih (k := k + 1) (Nat.lt_of_succ_lt_succ hfuel) (by rwa [hshift])
      (fun j hj => by rw [hshift]; exact hused (j + 1) (Nat.succ_le_succ hj))
      (fun j hj => by rw [hshift]; exact hbefore (j + 1) (Nat.succ_lt_succ hj))
    rw [assignLoop, show inUse (candidate startMsgid k) = true from hused 0 (Nat.zero_le _),
      nextMsgId_candidate, if_neg (by decide), if_neg (hbefore 0 n.succ_pos), hrest]

/-- The loop does not end. -/
theorem assignLoop_eq_none {fuel k : ℕ} (hused : ∀ j, inUse (candidate 0 j) = true) :
    assignLoop inUse 0 fuel (candidate 0 k) = none := by
  induction fuel generalizing k with
  | zero => rfl
  | succ fuel ih =>
    have hne : candidate 0 (k + 1) ≠ 0 := Nat.succ_ne_zero _
    rw [assignLoop, hused, nextMsgId_candidate, if_neg (by decide), if_neg hne, ih]

theorem candidate_bounds (startMsgid k : ℕ) :
    0 < candidate startMsgid k ∧ candidate startMsgid k ≤ maxMsgId := by
  rw [candidate, maxMsgId]
  omega

theorem nextMsgId_le {msgid : ℕ} (h : msgid ≤ maxMsgId) : nextMsgId msgid ≤ maxMsgId := by
  rw [nextMsgId, maxMsgId] at *
  split_ifs <;> omega

theorem fresh_of_assignLoop {fuel k msgid : ℕ} (hk : k ≤ maxMsgId)
    (h : assignLoop inUse startMsgid fuel k = some msgid) (hne : msgid ≠ 0) :
    msgid ≤ maxMsgId ∧ inUse msgid = false := by
  induction fuel generalizing k with
  | zero => cases h
  | succ fuel ih =>
    rw [assignLoop] at h
    split_ifs at h with hfree hstart
    · obtain rfl := Option.some.inj h
      exact ⟨hk, by simpa using hfree⟩
    · exact absurd (Option.some.inj h).symm hne
    · exact ih (nextMsgId_le hk) h

/-- An identifier that is given out is not in use. -/
theorem fresh_of_assignMsgId {fuel msgid : ℕ} (hstart : startMsgid ≤ maxMsgId)
    (h : assignMsgId inUse startMsgid fuel = some msgid) (hne : msgid ≠ 0) :
    msgid ≤ maxMsgId ∧ inUse msgid = false :=
  fresh_of_assignLoop (nextMsgId_le hstart) h hne

/-- The cases of the search. -/
theorem assignMsgId_cases (inUse : ℕ → Bool) (h : startMsgid ≤ maxMsgId) :
    (∃ k, FirstFree inUse startMsgid k ∧ candidate startMsgid k ≠ startMsgid ∧
        ∀ fuel, k < fuel → assignMsgId inUse startMsgid fuel = some (candidate startMsgid k)) ∨
      (Exhausted inUse startMsgid ∧
        ∀ fuel, maxMsgId ≤ fuel → assignMsgId inUse startMsgid fuel = some 0) ∨
      (startMsgid = 0 ∧ (∀ i, 0 < i → i ≤ maxMsgId → inUse i = true) ∧
        ∀ fuel, assignMsgId inUse startMsgid fuel = none) := by
  by_cases hfree : ∃ k, k < maxMsgId ∧ inUse (candidate startMsgid k) = false ∧
      candidate startMsgid k ≠ startMsgid
  · -- The first one that can be given out.
    classical
    obtain ⟨hk, hused, hne⟩ := Nat.find_spec hfree
    have hmin : ∀ j < Nat.find hfree, inUse (candidate startMsgid j) = true ∧
        candidate startMsgid (j + 1) ≠ startMsgid := by
      intro j hj
      have hne' : ∀ i ≤ Nat.find hfree, candidate startMsgid i ≠ startMsgid := by
        intro i hi heq
        obtain ⟨hzero, hlast⟩ := (candidate_eq_start_iff h (by omega)).1 heq
        exact hne ((candidate_eq_start_iff h hk).2 ⟨hzero, by omega⟩)
      have hnot := Nat.find_min hfree hj
      refine ⟨?_, hne' (j + 1) hj⟩
      by_contra hfalse
      exact hnot ⟨by omega, by simpa using hfalse, hne' j hj.le⟩
    refine .inl ⟨Nat.find hfree, ⟨hk, hused, fun j hj => (hmin j hj).1⟩, hne, fun fuel hfuel => ?_⟩
    have hloop := assignLoop_of_free (k := 0) hfuel (by rwa [Nat.zero_add])
      (fun j hj => by rw [Nat.zero_add]; exact hmin j hj)
    rwa [Nat.zero_add, ← nextMsgId_start h] at hloop
  · have hall : ∀ k < maxMsgId, candidate startMsgid k ≠ startMsgid →
        inUse (candidate startMsgid k) = true := by
      intro k hk hne
      by_contra hused
      exact hfree ⟨k, hk, by simpa using hused, hne⟩
    have hused : ∀ i, 0 < i → i ≤ maxMsgId → i ≠ startMsgid → inUse i = true := by
      intro i hpos hi hne
      obtain ⟨k, hk, rfl⟩ := exists_candidate hpos hi h
      exact hall k hk hne
    by_cases hzero : startMsgid = 0
    · refine .inr (.inr ⟨hzero, fun i hpos hi => hused i hpos hi (by omega), fun fuel => ?_⟩)
      rw [assignMsgId, nextMsgId_start h, hzero]
      refine assignLoop_eq_none fun j => hused _ (candidate_bounds 0 j).1 (candidate_bounds 0 j).2 ?_
      rw [hzero]
      exact Nat.succ_ne_zero _
    · refine .inr (.inl ⟨⟨hzero, hused⟩, fun fuel hfuel => ?_⟩)
      rw [assignMsgId, nextMsgId_start h]
      have hlast : candidate startMsgid (65533 + 1) = startMsgid :=
        (candidate_eq_start_iff h (by decide)).2 ⟨hzero, rfl⟩
      have hbefore : ∀ j ≤ 65533, candidate startMsgid j ≠ startMsgid := by
        intro j hj heq
        have := ((candidate_eq_start_iff h (by rw [maxMsgId]; omega)).1 heq).2
        rw [maxMsgId] at this
        omega
      refine assignLoop_of_used (n := 65533) (by rw [maxMsgId] at hfuel; omega) ?_ ?_ ?_
      · rwa [Nat.zero_add]
      · intro j hj
        rw [Nat.zero_add]
        exact hall j (by rw [maxMsgId]; omega) (hbefore j hj)
      · intro j hj
        rw [Nat.zero_add]
        exact hbefore (j + 1) hj

theorem FirstFree.not_used {k : ℕ} (hk : FirstFree inUse startMsgid k) :
    ¬inUse (candidate startMsgid k) = true := by
  rw [hk.2.1]
  decide

theorem FirstFree.unique {k k' : ℕ} (hk : FirstFree inUse startMsgid k)
    (hk' : FirstFree inUse startMsgid k') : k = k' := by
  obtain hlt | heq | hlt := lt_trichotomy k k'
  · exact absurd (hk'.2.2 k hlt) hk.not_used
  · exact heq
  · exact absurd (hk.2.2 k' hlt) hk'.not_used

/-- The identifier that is given out is the first that is not in use, or 0 if all but
    the last one are in use. The loop does not end if there is no last one and all
    are in use, and only then. -/
theorem assignMsgId_iff (inUse : ℕ → Bool) (h : startMsgid ≤ maxMsgId) :
    (∀ msgid, assignMsgId inUse startMsgid maxMsgId = some msgid ↔
      msgid = 0 ∧ Exhausted inUse startMsgid ∨
        msgid ≠ startMsgid ∧ ∃ k, FirstFree inUse startMsgid k ∧ msgid = candidate startMsgid k) ∧
    ((∀ fuel, assignMsgId inUse startMsgid fuel = none) ↔
      startMsgid = 0 ∧ ∀ i, 0 < i → i ≤ maxMsgId → inUse i = true) := by
  obtain ⟨k, hk, hne, heq⟩ | ⟨hexhausted, heq⟩ | ⟨hzero, hused, heq⟩ := assignMsgId_cases inUse h
  · have hbounds := candidate_bounds startMsgid k
    refine ⟨fun msgid => ?_, fun hnone => ?_, fun hused => ?_⟩
    · rw [heq _ hk.1, Option.some.injEq]
      constructor
      · rintro rfl
        exact .inr ⟨hne, k, hk, rfl⟩
      · rintro (⟨-, -, hused⟩ | ⟨-, k', hk', rfl⟩)
        · exact absurd (hused _ hbounds.1 hbounds.2 hne) hk.not_used
        · rw [hk.unique hk']
    · have := heq maxMsgId hk.1
      rw [hnone] at this
      cases this
    · exact absurd (hused.2 _ hbounds.1 hbounds.2) hk.not_used
  · refine ⟨fun msgid => ?_, fun hnone => ?_, fun hused => absurd hused.1 hexhausted.1⟩
    · rw [heq _ le_rfl, Option.some.injEq]
      constructor
      · rintro rfl
        exact .inl ⟨rfl, hexhausted⟩
      · rintro (⟨rfl, -⟩ | ⟨hne, k, hk, rfl⟩)
        · rfl
        · exact absurd (hexhausted.2 _ (candidate_bounds _ k).1 (candidate_bounds _ k).2 hne)
            hk.not_used
    · have := heq maxMsgId le_rfl
      rw [hnone] at this
      cases this
  · refine ⟨fun msgid => ?_, fun _ => ⟨hzero, hused⟩, fun _ => heq⟩
    rw [heq]
    constructor
    · intro hsome
      cases hsome
    · rintro (⟨-, hne, -⟩ | ⟨-, k, hk, -⟩)
      · exact absurd hzero hne
      · exact absurd (hused _ (candidate_bounds _ k).1 (candidate_bounds _ k).2) hk.not_used

theorem assignMsgId_iff_wrapped :
    assignMsgId (fun i => i ≤ 2) maxMsgId maxMsgId = some 3 ∧
      ∀ fuel, assignMsgId (fun _ => true) 0 fuel = none := by
  constructor
  · refine ((assignMsgId_iff _ le_rfl).1 3).2 (.inr ⟨by decide, 2, ⟨by decide, by decide, ?_⟩, rfl⟩)
    decide
  · exact (assignMsgId_iff _ (Nat.zero_le _)).2.2 ⟨rfl, fun _ _ _ => rfl⟩

end MQTTAsync

end Cmqtt
