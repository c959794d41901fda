import Cmqtt.Process

/-!
# The registry of commands

Handlers of commands are registered in a table of command types (`sCmdMap`),
each entry of which points to a table of handlers, or is null until the type is
added. The three functions of the registry take a type of different widths:
`cmdAddType` and `cmdRegister` an `unsigned short`, with which they index the
table of 256 entries, and `cmdGetProc` an `unsigned char`, though the header
declares an `unsigned short`.

What the registry is for is stated on the history of its calls and their
results: the handler of a command is the first one registered
(`firstRegistered`), a call that cannot be carried out (`CarriedOut`) returns 0
and changes nothing, and any other changes what `cmdGetProc` returns for its
own command only (`Sound`). The last is stated for the types in a set `D`, such
as all of them or those within the table.

This is so for exactly the sequences of calls that fit (`Fits`,
`registry_soundRun_iff`): an index beyond the table is out of range, a type that
was not added is a null pointer, and `cmdGetProc` takes a type beyond the table
for its low byte, so that a handler is also seen for other types (`Unseen`).
As long as the calls return, the tables and the history agree (`Agrees`).
-/

namespace Cmqtt

namespace Command

variable {P : Type}

/-- `MAX_CMD_TYPE`. -/
def maxCmdType : UInt16 := 256

/-- `sCmdMap`: `MAX_CMD_TYPE` pointers to tables of `MAX_CMD_VALUE` handlers, so that the
    indices within the tables are bytes. A null pointer is `none`. -/
def CmdMap (P : Type) := UInt8 → Option (UInt8 → Option P)

/-- The table of the types at the start. -/
def CmdMap.empty : CmdMap P := fun _ => none

/-- The pointer at an index. -/
def CmdMap.read (sCmdMap : CmdMap P) (cmd : UInt16) : Except Stop (Option (UInt8 → Option P)) :=
  if cmd < maxCmdType then .ok (sCmdMap cmd.toUInt8) else .error (.overflow .sCmdMap)

/-- An entry of `sCmdMap` is set to a table. -/
def CmdMap.set (sCmdMap : CmdMap P) (cmd : UInt8) (procs : UInt8 → Option P) : CmdMap P :=
  fun c => if c = cmd then some procs else sCmdMap c

/-- `calloc` gives a table of null pointers. -/
def cmdAddType (sCmdMap : CmdMap P) (cmd : UInt16) : Except Stop (ℤ × CmdMap P) :=
  sCmdMap.read cmd >>= fun
    | some _ => .ok (0, sCmdMap)
    | none => .ok (1, sCmdMap.set cmd.toUInt8 fun _ => none)

def cmdRegister (sCmdMap : CmdMap P) (cmd : UInt16) (value : UInt8) (proc : Option P) :
    Except Stop (ℤ × CmdMap P) :=
  sCmdMap.read cmd >>= fun
    | some procs =>
      if (procs value).isSome then .ok (0, sCmdMap)
      else .ok (if proc.isSome then 1 else 0,
        sCmdMap.set cmd.toUInt8 (Function.update procs value proc))
    -- the handler is assigned whether or not the type was found
    | none => .error .nullPointer

def cmdGetProc (sCmdMap : CmdMap P) (cmd value : UInt8) : Option P :=
  (sCmdMap cmd).bind fun procs => procs value

/-- A call of the registry, with a type as the header declares it. -/
inductive Op (P : Type)
  | addType (cmd : UInt16)
  | register (cmd : UInt16) (value : UInt8) (proc : Option P)
  | getProc (cmd : UInt16) (value : UInt8)
  deriving DecidableEq

/-- What a call returns. -/
inductive Result (P : Type)
  | ret (n : ℤ)
  | proc (p : Option P)
  deriving DecidableEq

def call (sCmdMap : CmdMap P) : Op P → Except Stop (Result P × CmdMap P)
  | .addType cmd => (cmdAddType sCmdMap cmd).map fun (n, m) => (.ret n, m)
  | .register cmd value proc => (cmdRegister sCmdMap cmd value proc).map fun (n, m) => (.ret n, m)
  -- the type is converted to an `unsigned char`
  | .getProc cmd value => .ok (.proc (cmdGetProc sCmdMap cmd.toUInt8 value), sCmdMap)

/-! ## The history -/

/-- The calls so far, with what they returned. -/
abbrev History (P : Type) := List (Op P × Result P)

/-- The handler a call has registered for a command. -/
def registered (t : UInt16) (v : UInt8) : Op P × Result P → Option P
  | (.register t' v' p, .ret n) => if t' = t ∧ v' = v ∧ n = 1 then p else none
  | _ => none

/-- The handler registered first for a command. -/
def firstRegistered (hist : History P) (t : UInt16) (v : UInt8) : Option P :=
  hist.findSome? (registered t v)

/-- A type was added. -/
def Added (hist : History P) (t : UInt16) : Prop := (.addType t, .ret 1) ∈ hist

/-- A call can be carried out. -/
def CarriedOut (hist : History P) : Op P → Prop
  | .addType t => t < maxCmdType ∧ ¬Added hist t
  | .register t v p => t < maxCmdType ∧ Added hist t ∧ firstRegistered hist t v = none ∧ p ≠ none
  | .getProc _ _ => True

/-- What a call may do: get the handler registered first, and change what `cmdGetProc`
    returns, for the types in `D`, only for the command it registers a handler for, if it
    can be carried out. -/
structure Sound (D : Set UInt16) (hist : History P) (m : CmdMap P) (op : Op P) (r : Result P)
    (m' : CmdMap P) : Prop where
  getProc : ∀ t v, op = .getProc t v → r = .proc (firstRegistered hist t v)
  refused : ¬CarriedOut hist op → r = .ret 0 ∧
    ∀ (t : UInt16) v, cmdGetProc m' t.toUInt8 v = cmdGetProc m t.toUInt8 v
  frame : ∀ t ∈ D, ∀ v, (∀ p, op ≠ .register t v p) →
    cmdGetProc m' t.toUInt8 v = cmdGetProc m t.toUInt8 v

/-- Calls in turn, each of which returns and does what it may. -/
def SoundRun (D : Set UInt16) (hist : History P) (m : CmdMap P) : List (Op P) → Prop
  | [] => True
  | op :: ops => ∃ r m', call m op = .ok (r, m') ∧ Sound D hist m op r m' ∧
    SoundRun D (hist ++ [(op, r)]) m' ops

/-- A registration that no other type in `D` sees: it registers nothing, the handler being
    null or not the first one, or no other type in `D` has its low byte. -/
def Unseen (D : Set UInt16) (before : List (Op P)) (t : UInt16) (v : UInt8) (p : Option P) :
    Prop :=
  p = none ∨ (∃ q, .register t v (some q) ∈ before) ∨ ∀ t' ∈ D, t'.toUInt8 = t.toUInt8 → t' = t

/-- A call that fits the tables, given the calls before it: its type is in the table, and a
    type handlers are registered for was added. A handler of a type beyond the table is
    asked for only if there is none for its low byte. -/
def Fits (D : Set UInt16) (before : List (Op P)) : Op P → Prop
  | .addType t => t < maxCmdType
  | .register t v p => t < maxCmdType ∧ .addType t ∈ before ∧ Unseen D before t v p
  | .getProc t v => t < maxCmdType ∨ ∀ p, .register t.toUInt8.toUInt16 v (some p) ∉ before

variable {D : Set UInt16} {hist : History P} {m m' : CmdMap P} {op : Op P} {r : Result P} {t t' : UInt16}
  {v v' : UInt8} {p : Option P}

theorem isSome_set (m : CmdMap P) (c c' : UInt8) (procs : UInt8 → Option P) :
    (m.set c procs c').isSome ↔ c' = c ∨ (m c').isSome := by
  by_cases h : c' = c <;> simp [CmdMap.set, h]

theorem cmdGetProc_set (m : CmdMap P) (c c' : UInt8) (procs : UInt8 → Option P) :
    cmdGetProc (m.set c procs) c' v = if c' = c then procs v else cmdGetProc m c' v := by
  by_cases h : c' = c <;> simp [cmdGetProc, CmdMap.set, h]

theorem firstRegistered_append (e : Op P × Result P) :
    firstRegistered (hist ++ [e]) t v = (firstRegistered hist t v).or (registered t v e) := by
  simp [firstRegistered, List.findSome?_append]

theorem lt_maxCmdType_iff : t < maxCmdType ↔ t.toNat < 256 := Iff.rfl

theorem toUInt8_inj (h : t < maxCmdType) (h' : t' < maxCmdType) :
    t.toUInt8 = t'.toUInt8 ↔ t = t' := by
  rw [lt_maxCmdType_iff] at h h'
  rw [← UInt8.toNat_inj, ← UInt16.toNat_inj, UInt16.toNat_toUInt8, UInt16.toNat_toUInt8]
  omega

theorem toUInt16_lt (b : UInt8) : b.toUInt16 < maxCmdType := by
  rw [lt_maxCmdType_iff, UInt8.toNat_toUInt16]
  exact b.toNat_lt

/-! ## The tables and the history -/

/-- The tables and the history agree, all calls having been within the tables. -/
structure Agrees (hist : History P) (m : CmdMap P) : Prop where
  isSome_iff : ∀ t < maxCmdType, (m t.toUInt8).isSome ↔ Added hist t
  getProc_eq : ∀ t < maxCmdType, ∀ v, cmdGetProc m t.toUInt8 v = firstRegistered hist t v
  added_iff : ∀ t < maxCmdType, Added hist t ↔ .addType t ∈ hist.map (·.1)
  registered_iff : ∀ t < maxCmdType, ∀ v, firstRegistered hist t v = none ↔
    ∀ p, .register t v (some p) ∉ hist.map (·.1)
  beyond : ∀ t, ¬t < maxCmdType → ∀ v, firstRegistered hist t v = none

theorem Agrees.empty : Agrees [] (CmdMap.empty : CmdMap P) := by
  constructor <;> simp [CmdMap.empty, Added, firstRegistered, cmdGetProc]

/-- A call that does not return 1 registers nothing. -/
theorem registered_of_ne (hr : r ≠ .ret 1) : registered t v (op, r) = none := by
  cases op with
  | addType => rfl
  | getProc => rfl
  | register t' v' p =>
    cases r with
    | proc => rfl
    | ret n => exact if_neg fun ⟨_, _, hn⟩ => hr (congrArg _ hn)

/-- A call that does not return 1, and adds no type and registers no handler that was not
    there. -/
theorem Agrees.same (h : Agrees hist m) (hr : r ≠ .ret 1)
    (hadd : ∀ t, op = .addType t → Added hist t)
    (hreg : ∀ t v p, op = .register t v (some p) → firstRegistered hist t v ≠ none) :
    Agrees (hist ++ [(op, r)]) m := by
  have hadded (t : UInt16) : Added (hist ++ [(op, r)]) t ↔ Added hist t := by
    simp [Added, hr.symm]
  have hfirst (t : UInt16) (v : UInt8) :
      firstRegistered (hist ++ [(op, r)]) t v = firstRegistered hist t v := by
    rw [firstRegistered_append, registered_of_ne hr, Option.or_none]
  constructor
  all_goals simp only [hadded, hfirst, List.map_append, List.map_cons, List.map_nil,
    List.mem_append, List.mem_singleton]
  · exact h.isSome_iff
  · exact h.getProc_eq
  · intro t ht
    rw [← h.added_iff t ht]
    exact ⟨.inl, fun hor => hor.elim id fun heq => hadd t heq.symm⟩
  · intro t ht v
    rw [h.registered_iff t ht v]
    refine ⟨fun hnot p hor => hor.elim (hnot p) fun heq => ?_, fun hnot p hp => hnot p (.inl hp)⟩
    exact hreg t v p heq.symm ((h.registered_iff t ht v).2 hnot)
  · exact h.beyond

/-- A type is added. -/
theorem Agrees.addType (h : Agrees hist m) (ht : t < maxCmdType) (hm : m t.toUInt8 = none) :
    Agrees (hist ++ [(.addType t, .ret 1)]) (m.set t.toUInt8 fun _ => none) := by
  have hfirst (t' : UInt16) (v : UInt8) :
      firstRegistered (hist ++ [(.addType t, .ret 1)]) t' v = firstRegistered hist t' v := by
    rw [firstRegistered_append]
    exact Option.or_none
  have hadded (t' : UInt16) :
      Added (hist ++ [(.addType t, .ret 1)]) t' ↔ Added hist t' ∨ t' = t := by
    simp [Added]
  constructor
  all_goals simp only [hadded, hfirst, List.map_append, List.map_cons, List.map_nil,
    List.mem_append, List.mem_singleton, reduceCtorEq, or_false, Op.addType.injEq]
  · intro t' ht'
    rw [isSome_set, toUInt8_inj ht' ht, h.isSome_iff t' ht', or_comm]
  · intro t' ht' v
    rw [cmdGetProc_set, ← h.getProc_eq t' ht' v]
    split_ifs with h8
    · simp [cmdGetProc, h8, hm]
    · rfl
  · intro t' ht'
    rw [h.added_iff t' ht']
  · exact h.registered_iff
  · exact h.beyond

/-- A handler is registered. -/
theorem Agrees.register (h : Agrees hist m) (ht : t < maxCmdType) {procs : UInt8 → Option P}
    (hm : m t.toUInt8 = some procs) (hv : procs v = none) (p : P) :
    Agrees (hist ++ [(.register t v (some p), .ret 1)])
      (m.set t.toUInt8 (Function.update procs v (some p))) := by
  have hnone : firstRegistered hist t v = none := by
    rw [← h.getProc_eq t ht v, cmdGetProc, hm]
    exact hv
  have hfirst (t' : UInt16) (v' : UInt8) :
      firstRegistered (hist ++ [(.register t v (some p), .ret 1)]) t' v' =
        if t' = t ∧ v' = v then some p else firstRegistered hist t' v' := by
    rw [firstRegistered_append]
    split_ifs with hc
    · obtain ⟨rfl, rfl⟩ := hc
      simp [hnone, registered]
    · have hne : ¬(t = t' ∧ v = v') := fun ⟨ht, hv⟩ => hc ⟨ht.symm, hv.symm⟩
      simp [registered, hne]
  have hadded (t' : UInt16) :
      Added (hist ++ [(.register t v (some p), .ret 1)]) t' ↔ Added hist t' := by
    simp [Added]
  constructor
  all_goals simp only [hadded, hfirst, List.map_append, List.map_cons, List.map_nil,
    List.mem_append, List.mem_singleton, reduceCtorEq, or_false, Op.register.injEq]
  · intro t' ht'
    rw [isSome_set, ← h.isSome_iff t' ht', or_iff_right_iff_imp]
    intro h8
    simp [h8, hm]
  · intro t' ht' v'
    rw [cmdGetProc_set]
    simp only [toUInt8_inj ht' ht]
    by_cases heq : t' = t
    · subst heq
      by_cases hv' : v' = v
      · simp [hv']
      · simp [hv', ← h.getProc_eq t' ht', cmdGetProc, hm]
    · simp [heq, h.getProc_eq t' ht']
  · exact h.added_iff
  · intro t' ht' v'
    by_cases hc : t' = t ∧ v' = v
    · rw [if_pos hc]
      exact iff_of_false nofun fun hnot => hnot p (.inr ⟨hc.1, hc.2, rfl⟩)
    · rw [if_neg hc, h.registered_iff t' ht' v']
      refine forall_congr' fun q => not_congr ?_
      exact ⟨.inl, fun hor => hor.resolve_right fun ⟨ht, hv, _⟩ => hc ⟨ht, hv⟩⟩
  · intro t' ht' v'
    have hne : ¬(t' = t ∧ v' = v) := fun hc => ht' (hc.1 ▸ ht)
    rw [if_neg hne]
    exact h.beyond t' ht' v'

/-! ## Calls -/

theorem read_of_lt (ht : t < maxCmdType) : m.read t = .ok (m t.toUInt8) := if_pos ht

theorem read_of_not_lt (ht : ¬t < maxCmdType) : m.read t = .error (.overflow .sCmdMap) := if_neg ht

theorem cmdRegister_eq (ht : t < maxCmdType) {procs : UInt8 → Option P}
    (hm : m t.toUInt8 = some procs) : cmdRegister m t v p =
      if (procs v).isSome then .ok (0, m)
      else .ok (if p.isSome then 1 else 0, m.set t.toUInt8 (Function.update procs v p)) := by
  rw [cmdRegister, read_of_lt ht, hm]
  rfl

/-- A null handler in a slot without one changes nothing. -/
theorem set_update_none {c : UInt8} {procs : UInt8 → Option P} (hm : m c = some procs)
    (hv : procs v = none) : m.set c (Function.update procs v none) = m := by
  have hprocs : Function.update procs v none = procs := by
    rw [← hv]
    exact Function.update_eq_self v procs
  funext c'
  rw [hprocs, CmdMap.set]
  split_ifs with hc
  · rw [hc, hm]
  · rfl

/-- A call that returns 0 and leaves the tables alone. -/
theorem Sound.of_ret_zero (hop : ∀ t v, op ≠ .getProc t v) : Sound D hist m op (.ret 0) m :=
  ⟨fun t v heq => absurd heq (hop t v), fun _ => ⟨rfl, fun _ _ => rfl⟩, fun _ _ _ _ => rfl⟩

/-- A new handler is seen for exactly the types with its low byte. -/
theorem sound_register_iff {procs : UInt8 → Option P} {q : P} (ht : t < maxCmdType)
    (hadded : Added hist t) (hslot : firstRegistered hist t v = none)
    (hm : m t.toUInt8 = some procs) (hv : procs v = none) :
    Sound D hist m (.register t v (some q)) (.ret 1)
        (m.set t.toUInt8 (Function.update procs v (some q))) ↔
      ∀ t' ∈ D, t'.toUInt8 = t.toUInt8 → t' = t := by
  constructor
  · intro hsound t' ht' h8
    by_contra hne
    have hframe := hsound.frame t' ht' v fun p hp => hne (by cases hp; rfl)
    rw [cmdGetProc_set, if_pos h8, Function.update_self, cmdGetProc, h8, hm] at hframe
    cases hframe.trans hv
  · intro hD
    have hcarried : CarriedOut hist (.register t v (some q)) := ⟨ht, hadded, hslot, nofun⟩
    refine ⟨nofun, fun hc => absurd hcarried hc, fun t' ht' v' hne => ?_⟩
    rw [cmdGetProc_set]
    split_ifs with h8
    · -- another value of the same type
      obtain rfl := hD t' ht' h8
      have hv' : v' ≠ v := fun hv' => hne (some q) (by rw [hv'])
      rw [Function.update_of_ne hv', cmdGetProc, hm]
      rfl
    · rfl

/-- The handler of a type is that of its low byte. -/
theorem Agrees.getProc_lowByte (h : Agrees hist m) (t : UInt16) (v : UInt8) :
    cmdGetProc m t.toUInt8 v = firstRegistered hist t.toUInt8.toUInt16 v := by
  rw [← h.getProc_eq _ (toUInt16_lt _), UInt8.toUInt8_toUInt16]

theorem Agrees.call_addType (D : Set UInt16) (h : Agrees hist m) (ht : t < maxCmdType) :
    ∃ r m', call m (.addType t) = .ok (r, m') ∧ Agrees (hist ++ [(.addType t, r)]) m' ∧
      Sound D hist m (.addType t) r m' := by
  cases hm : m t.toUInt8 with
  | some procs =>
    refine ⟨.ret 0, m, ?_, h.same nofun ?_ nofun, .of_ret_zero nofun⟩
    · rw [call, cmdAddType, read_of_lt ht, hm]
      rfl
    · rintro _ ⟨⟩
      exact (h.isSome_iff t ht).1 (by rw [hm]; rfl)
  | none =>
    have hnot : ¬Added hist t := by
      rw [← h.isSome_iff t ht, hm]
      exact Bool.false_ne_true
    refine ⟨.ret 1, _, ?_, h.addType ht hm, nofun, fun hc => absurd ⟨ht, hnot⟩ hc,
      fun t' _ v _ => ?_⟩
    · rw [call, cmdAddType, read_of_lt ht, hm]
      rfl
    · rw [cmdGetProc_set]
      split_ifs with h8
      · rw [cmdGetProc, h8, hm]
        rfl
      · rfl

theorem Agrees.call_register (D : Set UInt16) (h : Agrees hist m) (ht : t < maxCmdType)
    (hadd : .addType t ∈ hist.map (·.1)) (v : UInt8) (p : Option P) :
    ∃ r m', call m (.register t v p) = .ok (r, m') ∧
      Agrees (hist ++ [(.register t v p, r)]) m' ∧
      (Sound D hist m (.register t v p) r m' ↔
        Unseen D (hist.map (·.1)) t v p) := by
  have hadded := (h.added_iff t ht).2 hadd
  obtain ⟨procs, hm⟩ := Option.isSome_iff_exists.1 ((h.isSome_iff t ht).2 hadded)
  have hslot : firstRegistered hist t v = procs v := by
    rw [← h.getProc_eq t ht v, cmdGetProc, hm]
    rfl
  have hcall := cmdRegister_eq (v := v) (p := p) ht hm
  have htaken := h.registered_iff t ht v
  cases hv : procs v with
  | some q =>
    have hne : firstRegistered hist t v ≠ none := by simp [hslot, hv]
    refine ⟨.ret 0, m, ?_, h.same nofun nofun ?_, iff_of_true (.of_ret_zero nofun) ?_⟩
    · rw [call, hcall, hv]
      rfl
    · rintro _ _ _ ⟨⟩
      exact hne
    · rw [Ne, htaken, not_forall] at hne
      exact .inr (.inl (hne.imp fun _ => not_not.1))
  | none =>
    cases p with
    | none =>
      refine ⟨.ret 0, m, ?_, h.same nofun nofun nofun,
        iff_of_true (.of_ret_zero nofun) (.inl rfl)⟩
      rw [call, hcall, hv, set_update_none hm hv]
      rfl
    | some q =>
      have hnone := hslot.trans hv
      refine ⟨.ret 1, _, ?_, h.register ht hm hv q, ?_⟩
      · rw [call, hcall, hv]
        rfl
      · rw [sound_register_iff ht hadded hnone hm hv]
        refine ⟨fun hD => .inr (.inr hD), ?_⟩
        rintro (hq | ⟨q', hq'⟩ | hD)
        · cases hq
        · exact absurd hq' (htaken.1 hnone q')
        · exact hD

theorem Agrees.call_getProc (D : Set UInt16) (h : Agrees hist m) (t : UInt16) (v : UInt8) :
    ∃ r m', call m (.getProc t v) = .ok (r, m') ∧ Agrees (hist ++ [(.getProc t v, r)]) m' ∧
      (Sound D hist m (.getProc t v) r m' ↔ Fits D (hist.map (·.1)) (.getProc t v)) := by
  refine ⟨_, m, rfl, h.same nofun nofun nofun, ?_⟩
  have hsound : Sound D hist m (.getProc t v) (.proc (cmdGetProc m t.toUInt8 v)) m ↔
      cmdGetProc m t.toUInt8 v = firstRegistered hist t v := by
    constructor
    · exact fun hs => Result.proc.inj (hs.getProc t v rfl)
    · intro heq
      refine ⟨?_, fun hc => absurd trivial hc, fun _ _ _ _ => rfl⟩
      rintro _ _ ⟨⟩
      rw [heq]
  rw [hsound, Fits]
  by_cases ht : t < maxCmdType
  · exact iff_of_true (h.getProc_eq t ht v) (.inl ht)
  · -- a type beyond the table has no handler, and its low byte should have none
    rw [h.getProc_lowByte, h.beyond t ht, h.registered_iff _ (toUInt16_lt _) v]
    simp [ht]

/-- A call returns and does what it may exactly if it fits. -/
theorem Agrees.call (D : Set UInt16) (h : Agrees hist m) (op : Op P) :
    (∃ r m', call m op = .ok (r, m') ∧ Agrees (hist ++ [(op, r)]) m' ∧
      (Sound D hist m op r m' ↔ Fits D (hist.map (·.1)) op)) ∨
    ((∃ e, call m op = .error e) ∧ ¬Fits D (hist.map (·.1)) op) := by
  cases op with
  | addType t =>
    by_cases ht : t < maxCmdType
    · obtain ⟨r, m', hcall, hagrees, hsound⟩ := h.call_addType D ht
      exact .inl ⟨r, m', hcall, hagrees, iff_of_true hsound ht⟩
    · refine .inr ⟨⟨.overflow .sCmdMap, ?_⟩, ht⟩
      rw [Command.call, cmdAddType, read_of_not_lt ht]
      rfl
  | register t v p =>
    by_cases ht : t < maxCmdType
    · by_cases hadd : .addType t ∈ hist.map (·.1)
      · obtain ⟨r, m', hcall, hagrees, hsound⟩ := h.call_register D ht hadd v p
        refine .inl ⟨r, m', hcall, hagrees, hsound.trans ?_⟩
        exact ⟨fun hu => ⟨ht, hadd, hu⟩, fun hf => hf.2.2⟩
      · have hm : m t.toUInt8 = none := by
          rw [← Option.not_isSome_iff_eq_none, h.isSome_iff t ht, h.added_iff t ht]
          exact hadd
        refine .inr ⟨⟨.nullPointer, ?_⟩, fun hf => hadd hf.2.1⟩
        rw [Command.call, cmdRegister, read_of_lt ht, hm]
        rfl
    · refine .inr ⟨⟨.overflow .sCmdMap, ?_⟩, fun hf => ht hf.1⟩
      rw [Command.call, cmdRegister, read_of_not_lt ht]
      rfl
  | getProc t v => exact .inl (h.call_getProc D t v)

theorem Agrees.run_iff (D : Set UInt16) (h : Agrees hist m) (ops : List (Op P)) :
    SoundRun D hist m ops ↔
      ∀ pre op post, ops = pre ++ op :: post → Fits D (hist.map (·.1) ++ pre) op := by
  induction ops generalizing hist m with
  | nil => simp [SoundRun]
  | cons op ops ih =>
    -- the first call fits, and so do the others after it
    have hsplit : (∀ pre o post, op :: ops = pre ++ o :: post → Fits D (hist.map (·.1) ++ pre) o) ↔
        Fits D (hist.map (·.1)) op ∧ ∀ pre o post, ops = pre ++ o :: post →
          Fits D (hist.map (·.1) ++ op :: pre) o := by
      constructor
      · intro hall
        refine ⟨by simpa using hall [] op ops rfl, fun pre o post heq => ?_⟩
        exact hall (op :: pre) o post (by rw [heq]; rfl)
      · rintro ⟨hfits, hall⟩ (_ | ⟨o', pre⟩) o post heq
        · obtain ⟨rfl, -⟩ := List.cons.inj heq
          rwa [List.append_nil]
        · obtain ⟨rfl, heq'⟩ := List.cons.inj heq
          exact hall pre o post heq'
    rw [hsplit]
    rcases h.call D op with ⟨r, m', hcall, hagrees, hsound⟩ | ⟨⟨e, hcall⟩, hnot⟩
    · have hrest := ih hagrees
      simp only [List.map_append, List.map_cons, List.map_nil, List.append_assoc,
        List.singleton_append] at hrest
      rw [← hsound, ← hrest]
      constructor
      · rintro ⟨r₁, m₁, hcall₁, hs, hrun⟩
        obtain ⟨rfl, rfl⟩ := Prod.mk.inj (Except.ok.inj (hcall.symm.trans hcall₁))
        exact ⟨hs, hrun⟩
      · rintro ⟨hs, hrun⟩
        exact ⟨r, m', hcall, hs, hrun⟩
    · refine iff_of_false ?_ fun hf => hnot hf.1
      rintro ⟨r₁, m₁, hcall₁, -⟩
      cases hcall.symm.trans hcall₁

/-- The registry is a map with the first registration, as `cmdGetProc` sees it for the types
    in `D`, for exactly those sequences of calls all of which fit. -/
theorem registry_soundRun_iff (D : Set UInt16) (ops : List (Op P)) :
    SoundRun D [] .empty ops ↔ ∀ pre op post, ops = pre ++ op :: post → Fits D pre op := by
  simpa using Agrees.empty.run_iff D ops

/-- A handler is registered for a type that was not added. -/
theorem not_soundRun_register : ¬∀ ops : List (Op Unit), SoundRun Set.univ [] .empty ops := by
  intro hall
  obtain ⟨r, m', hcall, -, -⟩ := hall [.register 5 1 (some ())]
  cases hcall

end Command

end Cmqtt
