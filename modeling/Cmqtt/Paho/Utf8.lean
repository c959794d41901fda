import Cmqtt.CString

/-!
# UTF-8

The check of `utf-8.c` that is made of every topic: a table of the ranges of the
bytes of a character, looked through for one character after the other. The
bytes are compared as `char`, which has a sign on some machines and none on
others.

`validate_iff`: with or without signs, exactly the encodings of sequences of
characters are accepted.
-/

namespace Cmqtt

namespace UTF8

/-- The value of a `char`, with a sign or without. -/
def charValue (signed : Bool) (b : UInt8) : ℤ :=
  if signed ∧ 128 ≤ b.toNat then b.toNat - 256 else b.toNat

/-- `valid_ranges`: the lower and upper limits of the bytes of a character. -/
def validRanges : List (List (UInt8 × UInt8)) :=
  [[(0x00, 0x7F)],
    [(0xC2, 0xDF), (0x80, 0xBF)],
    [(0xE0, 0xE0), (0xA0, 0xBF), (0x80, 0xBF)],
    [(0xE1, 0xEC), (0x80, 0xBF), (0x80, 0xBF)],
    [(0xED, 0xED), (0x80, 0x9F), (0x80, 0xBF)],
    [(0xEE, 0xEF), (0x80, 0xBF), (0x80, 0xBF)],
    [(0xF0, 0xF0), (0x90, 0xBF), (0x80, 0xBF), (0x80, 0xBF)],
    [(0xF1, 0xF3), (0x80, 0xBF), (0x80, 0xBF), (0x80, 0xBF)],
    [(0xF4, 0xF4), (0x80, 0x8F), (0x80, 0xBF), (0x80, 0xBF)]]

/-- How many bytes a character has, by its first one. -/
def charlen (b : UInt8) : ℕ :=
  if b &&& 128 = 0 then 1
  else if b &&& 0xF0 = 0xF0 then 4
  else if b &&& 0xE0 = 0xE0 then 3
  else 2

variable (signed : Bool)

/-- Whether the bytes are in the ranges of a row of the table. -/
def matchesRow (bytes : List UInt8) (row : List (UInt8 × UInt8)) : Bool :=
  (bytes.zip row).all fun (b, lower, upper) =>
    !(charValue signed b < charValue signed lower || charValue signed b > charValue signed upper)

/-- `UTF8_char_validate`: what follows the first character. -/
def charValidate (data : List UInt8) : Option (List UInt8) :=
  match data with
  | [] => none
  | b :: _ =>
    if charlen b > data.length then none
    else if validRanges.any fun row =>
        row.length == charlen b && matchesRow signed (data.take (charlen b)) row then
      some (data.drop (charlen b))
    else none

/-- The loop of `UTF8_validate`. -/
def validateFrom : ℕ → List UInt8 → Bool
  | 0, _ => false
  | fuel + 1, data =>
    match charValidate signed data with
    | none => false
    | some [] => true
    | some curdata => validateFrom fuel curdata

/-- `UTF8_validate`; no character is empty, so that the loop ends by then. -/
def validate (data : List UInt8) : Bool :=
  data.isEmpty || validateFrom signed data.length data

/-- `UTF8_validateString`. -/
def validateString (string : CString) : Bool := validate signed string.bytes

/-- A byte in a range. -/
def InRange (b : UInt8) (r : UInt8 × UInt8) : Prop :=
  r.1.toNat ≤ b.toNat ∧ b.toNat ≤ r.2.toNat

/-- The limits of a range have the same sign, so that signs do not matter. -/
theorem inRange_iff {b lower upper : UInt8}
    (h : lower.toNat < 128 ↔ upper.toNat < 128) :
    (!(charValue signed b < charValue signed lower || charValue signed b > charValue signed upper)) =
      true ↔ InRange b (lower, upper) := by
  have hb := b.toNat_lt
  have hlower := lower.toNat_lt
  have hupper := upper.toNat_lt
  rw [Bool.not_eq_true', Bool.or_eq_false_iff, decide_eq_false_iff_not, decide_eq_false_iff_not]
  simp only [charValue, InRange]
  cases signed
  · simp only [Bool.false_eq_true, false_and, if_false]
    omega
  · simp only [true_and]
    split_ifs <;> omega

theorem same_sign : ∀ row ∈ validRanges, ∀ r ∈ row, (r.1.toNat < 128 ↔ r.2.toNat < 128) := by
  have hall : (validRanges.all fun row => row.all fun r =>
      decide (r.1.toNat < 128) == decide (r.2.toNat < 128)) = true := by decide
  intro row hrow r hr
  have hsame := List.all_eq_true.1 (List.all_eq_true.1 hall row hrow) r hr
  exact decide_eq_decide.1 (beq_iff_eq.1 hsame)

theorem matchesRow_iff {bytes : List UInt8} {row : List (UInt8 × UInt8)} (hrow : row ∈ validRanges)
    (hlen : bytes.length = row.length) :
    matchesRow signed bytes row = true ↔ List.Forall₂ InRange bytes row := by
  have hsign := same_sign row hrow
  clear hrow
  induction row generalizing bytes with
  | nil =>
    obtain rfl := List.length_eq_zero_iff.1 hlen
    simp [matchesRow]
  | cons r row ih =>
    obtain _ | ⟨b, bytes⟩ := bytes
    · simp at hlen
    · have hrest : matchesRow signed bytes row = true ↔ List.Forall₂ InRange bytes row :=
        ih (by simpa using hlen) fun r hr => hsign r (.tail _ hr)
      have hb := inRange_iff signed (b := b) (hsign r List.mem_cons_self)
      rw [List.forall₂_cons, ← hrest, ← hb]
      exact Bool.and_eq_true _ _ ▸ Iff.rfl

theorem charlen_eq : ∀ n : Fin 256, charlen (UInt8.ofNat n) =
    if n.1 < 0x80 then 1 else if n.1 < 0xE0 then 2 else if n.1 < 0xF0 then 3 else 4 := by
  decide +kernel

theorem charlen_of_inRange {b : UInt8} {r : UInt8 × UInt8} {row : List (UInt8 × UInt8)}
    (hrow : r :: row ∈ validRanges) (hb : InRange b r) : charlen b = (r :: row).length := by
  have hlen := charlen_eq ⟨b.toNat, b.toNat_lt⟩
  rw [UInt8.ofNat_toNat] at hlen
  obtain ⟨hlower, hupper⟩ := hb
  rw [hlen]
  simp only [validRanges, List.mem_cons, List.cons.injEq, List.not_mem_nil, or_false] at hrow
  obtain ⟨rfl, rfl⟩ | ⟨rfl, rfl⟩ | ⟨rfl, rfl⟩ | ⟨rfl, rfl⟩ | ⟨rfl, rfl⟩ | ⟨rfl, rfl⟩ | ⟨rfl, rfl⟩ |
    ⟨rfl, rfl⟩ | ⟨rfl, rfl⟩ := hrow
  all_goals
    simp only [UInt8.reduceToNat] at hlower hupper
    simp only [List.length_cons, List.length_nil]
    split_ifs <;> omega

theorem charValidate_eq_some_iff {data rest : List UInt8} : charValidate signed data = some rest ↔
    ∃ bytes, data = bytes ++ rest ∧ ∃ row ∈ validRanges, List.Forall₂ InRange bytes row := by
  constructor
  · intro h
    obtain _ | ⟨b, tl⟩ := data
    · cases h
    rw [charValidate] at h
    split_ifs at h with hlen hrow
    obtain ⟨row, hrow, hmatch⟩ := List.any_eq_true.1 hrow
    rw [Bool.and_eq_true, beq_iff_eq] at hmatch
    refine ⟨(b :: tl).take (charlen b), ?_, row, hrow, ?_⟩
    · rw [← Option.some.inj h, List.take_append_drop]
    · refine (matchesRow_iff signed hrow ?_).1 hmatch.2
      rw [List.length_take, hmatch.1]
      omega
  · rintro ⟨bytes, rfl, row, hrow, hbytes⟩
    have hlen := hbytes.length_eq
    cases hbytes with
    | nil => exact absurd hrow (by decide)
    | @cons b r bytes row hb hbytes =>
      have hchar := charlen_of_inRange hrow hb
      have htake : ((b :: bytes) ++ rest).take (charlen b) = b :: bytes := by
        rw [hchar, ← hlen, List.take_left]
      have hmatch := (matchesRow_iff signed hrow hlen).2 (.cons hb hbytes)
      rw [List.cons_append, charValidate, if_neg, if_pos, ← List.cons_append, hchar, ← hlen,
        List.drop_left]
      · refine List.any_eq_true.2 ⟨_, hrow, ?_⟩
        rw [Bool.and_eq_true, beq_iff_eq, ← List.cons_append, htake]
        exact ⟨hchar.symm, hmatch⟩
      · rw [hchar, ← hlen, ← List.cons_append, List.length_append]
        omega

/-! ## Characters -/

/-- The encoding of a character is in a row of the table. -/
theorem exists_row (c : Char) :
    ∃ row ∈ validRanges, List.Forall₂ InRange (String.utf8EncodeChar c) row := by
  have hvalid : c.val.toNat < 0xD800 ∨ 0xDFFF < c.val.toNat ∧ c.val.toNat < 0x110000 := c.valid
  rw [String.utf8EncodeChar]
  generalize c.val.toNat = v at hvalid
  split_ifs with h1 h2 h3
  · exact ⟨[(0x00, 0x7F)], by decide, by simp [InRange]; omega⟩
  · exact ⟨[(0xC2, 0xDF), (0x80, 0xBF)], by decide, by simp [InRange]; omega⟩
  · -- The rows keep out what has a shorter encoding, and the surrogates.
    obtain h | ⟨h, h'⟩ | ⟨h, h'⟩ | h : v < 0x1000 ∨ 0x1000 ≤ v ∧ v < 0xD000 ∨
        0xD000 ≤ v ∧ v < 0xD800 ∨ 0xE000 ≤ v := by omega
    · exact ⟨[(0xE0, 0xE0), (0xA0, 0xBF), (0x80, 0xBF)], by decide, by simp [InRange]; omega⟩
    · exact ⟨[(0xE1, 0xEC), (0x80, 0xBF), (0x80, 0xBF)], by decide, by simp [InRange]; omega⟩
    · exact ⟨[(0xED, 0xED), (0x80, 0x9F), (0x80, 0xBF)], by decide, by simp [InRange]; omega⟩
    · exact ⟨[(0xEE, 0xEF), (0x80, 0xBF), (0x80, 0xBF)], by decide, by simp [InRange]; omega⟩
  · obtain h | ⟨h, h'⟩ | h : v < 0x40000 ∨ 0x40000 ≤ v ∧ v < 0x100000 ∨ 0x100000 ≤ v := by omega
    · exact ⟨[(0xF0, 0xF0), (0x90, 0xBF), (0x80, 0xBF), (0x80, 0xBF)], by decide,
        by simp [InRange]; omega⟩
    · exact ⟨[(0xF1, 0xF3), (0x80, 0xBF), (0x80, 0xBF), (0x80, 0xBF)], by decide,
        by simp [InRange]; omega⟩
    · exact ⟨[(0xF4, 0xF4), (0x80, 0x8F), (0x80, 0xBF), (0x80, 0xBF)], by decide,
        by simp [InRange]; omega⟩

theorem ofNat_eq_of_toNat {n : ℕ} {b : UInt8} (h : n = b.toNat) : UInt8.ofNat n = b := by
  rw [h, UInt8.ofNat_toNat]

/-- The character with a number, for its encoding. -/
theorem exists_char_of_val {v : ℕ} (h : v < 0xD800 ∨ 0xDFFF < v ∧ v < 0x110000) :
    ∃ c : Char, c.val.toNat = v :=
  ⟨Char.ofNatAux v h, rfl⟩

theorem exists_char_one {a : UInt8} (ha : a.toNat ≤ 0x7F) :
    ∃ c : Char, String.utf8EncodeChar c = [a] := by
  obtain ⟨c, hc⟩ := exists_char_of_val (v := a.toNat) (by omega)
  refine ⟨c, ?_⟩
  simp only [String.utf8EncodeChar, hc, if_pos ha]
  rw [UInt8.ofNat_toNat]

theorem exists_char_two {a b : UInt8} (ha : 0xC2 ≤ a.toNat ∧ a.toNat ≤ 0xDF)
    (hb : 0x80 ≤ b.toNat ∧ b.toNat ≤ 0xBF) : ∃ c : Char, String.utf8EncodeChar c = [a, b] := by
  obtain ⟨c, hc⟩ := exists_char_of_val (v := (a.toNat - 0xC0) * 64 + (b.toNat - 0x80)) (by omega)
  refine ⟨c, ?_⟩
  simp only [String.utf8EncodeChar, hc]
  rw [if_neg (by omega), if_pos (by omega), ofNat_eq_of_toNat (b := a) (by omega),
    ofNat_eq_of_toNat (b := b) (by omega)]

theorem exists_char_three {a b d : UInt8} {v : ℕ}
    (hv : v = (a.toNat - 0xE0) * 4096 + (b.toNat - 0x80) * 64 + (d.toNat - 0x80))
    (hvalid : 0x800 ≤ v ∧ (v < 0xD800 ∨ 0xDFFF < v))
    (ha : 0xE0 ≤ a.toNat ∧ a.toNat ≤ 0xEF) (hb : 0x80 ≤ b.toNat ∧ b.toNat ≤ 0xBF)
    (hd : 0x80 ≤ d.toNat ∧ d.toNat ≤ 0xBF) : ∃ c : Char, String.utf8EncodeChar c = [a, b, d] := by
  obtain ⟨c, hc⟩ := exists_char_of_val (v := v) (by omega)
  refine ⟨c, ?_⟩
  simp only [String.utf8EncodeChar, hc]
  rw [if_neg (by omega), if_neg (by omega), if_pos (by omega), ofNat_eq_of_toNat (b := a) (by omega),
    ofNat_eq_of_toNat (b := b) (by omega), ofNat_eq_of_toNat (b := d) (by omega)]

theorem exists_char_four {a b d e : UInt8} {v : ℕ}
    (hv : v = (a.toNat - 0xF0) * 262144 + (b.toNat - 0x80) * 4096 + (d.toNat - 0x80) * 64 +
      (e.toNat - 0x80))
    (hvalid : 0x10000 ≤ v ∧ v < 0x110000) (ha : 0xF0 ≤ a.toNat)
    (hb : 0x80 ≤ b.toNat ∧ b.toNat ≤ 0xBF) (hd : 0x80 ≤ d.toNat ∧ d.toNat ≤ 0xBF)
    (he : 0x80 ≤ e.toNat ∧ e.toNat ≤ 0xBF) : ∃ c : Char, String.utf8EncodeChar c = [a, b, d, e] := by
  obtain ⟨c, hc⟩ := exists_char_of_val (v := v) (by omega)
  refine ⟨c, ?_⟩
  simp only [String.utf8EncodeChar, hc]
  rw [if_neg (by omega), if_neg (by omega), if_neg (by omega), ofNat_eq_of_toNat (b := a) (by omega),
    ofNat_eq_of_toNat (b := b) (by omega), ofNat_eq_of_toNat (b := d) (by omega),
    ofNat_eq_of_toNat (b := e) (by omega)]

/-- Bytes in a row of the table are the encoding of a character. -/
theorem exists_char {bytes : List UInt8} {row : List (UInt8 × UInt8)} (hrow : row ∈ validRanges)
    (h : List.Forall₂ InRange bytes row) : ∃ c : Char, String.utf8EncodeChar c = bytes := by
  simp only [validRanges, List.mem_cons, List.not_mem_nil, or_false] at hrow
  obtain rfl | rfl | rfl | rfl | rfl | rfl | rfl | rfl | rfl := hrow
  all_goals
    simp only [List.forall₂_cons_right_iff, List.forall₂_nil_right_iff, InRange,
      UInt8.reduceToNat] at h
  · obtain ⟨a, _, ha, rfl, rfl⟩ := h
    exact exists_char_one ha.2
  · obtain ⟨a, _, ha, ⟨b, _, hb, rfl, rfl⟩, rfl⟩ := h
    exact exists_char_two ha hb
  iterate 4
    obtain ⟨a, _, ha, ⟨b, _, hb, ⟨d, _, hd, rfl, rfl⟩, rfl⟩, rfl⟩ := h
    exact exists_char_three rfl (by omega) (by omega) (by omega) hd
  iterate 3
    obtain ⟨a, _, ha, ⟨b, _, hb, ⟨d, _, hd, ⟨e, _, he, rfl, rfl⟩, rfl⟩, rfl⟩, rfl⟩ := h
    exact exists_char_four rfl (by omega) (by omega) (by omega) hd he

theorem charValidate_iff {data rest : List UInt8} : charValidate signed data = some rest ↔
    ∃ c : Char, data = String.utf8EncodeChar c ++ rest := by
  rw [charValidate_eq_some_iff]
  constructor
  · rintro ⟨bytes, rfl, row, hrow, hbytes⟩
    obtain ⟨c, hc⟩ := exists_char hrow hbytes
    exact ⟨c, by rw [hc]⟩
  · rintro ⟨c, rfl⟩
    exact ⟨_, rfl, exists_row c⟩

theorem utf8EncodeChar_pos (c : Char) : 0 < (String.utf8EncodeChar c).length := by
  rw [String.length_utf8EncodeChar]
  exact Char.utf8Size_pos c

theorem validateFrom_iff {fuel : ℕ} {data : List UInt8} (hne : data ≠ []) (hfuel : data.length ≤ fuel) :
    validateFrom signed fuel data = true ↔ ∃ cs : List Char, data = cs.flatMap String.utf8EncodeChar := by
  induction fuel generalizing data with
  | zero => exact absurd (List.length_eq_zero_iff.1 (Nat.le_zero.1 hfuel)) hne
  | succ fuel ih =>
    rw [validateFrom]
    constructor
    · intro h
      cases hchar : charValidate signed data with
      | none =>
        rw [hchar] at h
        cases h
      | some rest =>
        obtain ⟨c, rfl⟩ := (charValidate_iff signed).1 hchar
        rw [hchar] at h
        obtain _ | ⟨b, rest⟩ := rest
        · exact ⟨[c], by simp⟩
        · have hlen : (b :: rest).length ≤ fuel := by
            have := utf8EncodeChar_pos c
            rw [List.length_append] at hfuel
            omega
          obtain ⟨cs, hcs⟩ := (ih (List.cons_ne_nil _ _) hlen).1 h
          exact ⟨c :: cs, by rw [List.flatMap_cons, hcs]⟩
    · rintro ⟨cs, rfl⟩
      obtain _ | ⟨c, cs⟩ := cs
      · exact absurd rfl hne
      rw [List.flatMap_cons] at hfuel ⊢
      rw [(charValidate_iff signed).2 ⟨c, rfl⟩]
      cases hrest : cs.flatMap String.utf8EncodeChar with
      | nil => rfl
      | cons b rest =>
        have hlen : (b :: rest).length ≤ fuel := by
          have := utf8EncodeChar_pos c
          rw [List.length_append, hrest] at hfuel
          omega
        exact (ih (List.cons_ne_nil _ _) hlen).2 ⟨cs, hrest.symm⟩

/-- The check accepts exactly the encodings of sequences of characters. -/
theorem validate_iff {data : List UInt8} :
    validate signed data = true ↔ ∃ cs : List Char, data = cs.flatMap String.utf8EncodeChar := by
  obtain _ | ⟨b, data⟩ := data
  · exact ⟨fun _ => ⟨[], rfl⟩, fun _ => rfl⟩
  · exact validateFrom_iff signed (List.cons_ne_nil b data) le_rfl

/-- The examples of the tests. -/
example : validate true [0x41, 0xE2, 0x89, 0xA2, 0xCE, 0x91, 0x2E] = true ∧
    validate true [0xED, 0xA1, 0x8C, 0xED, 0xBE, 0xB4] = false := by decide +kernel

end UTF8

end Cmqtt
