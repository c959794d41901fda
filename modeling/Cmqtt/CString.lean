import Mathlib.Tactic
import Mathlib.Data.List.DropRight

/-!
# C strings

The part of the C library that parsers of text rely on, over lists of bytes.

A C string is the list of the bytes before its terminating NUL, hence without
NUL itself (`CString`); the string held by a buffer is what stands before the
first NUL of the buffer (`CString.ofBytes`). A pointer into a string is an
offset, and reading at the offset where the bytes end reads the terminating
NUL (`charAt`).

* `strchr`, `strstr`: the first occurrence of a character, of a string.
  `strstr_eq_some_iff` says what the first occurrence is: the needle stands
  there, and it stands nowhere before.
* `trim`: the text without the blanks (spaces and tabs) at both ends.
* `atoi`: the value of the leading decimal number, as the 64-bit `strtol`
  saturates it and the conversion to a 32-bit `int` wraps it.
* `decimal`: the text `printf` writes for `%d` and a nonnegative number.
* `strncasecmp`: the comparison of the starts of two strings, up to case.
-/

namespace Cmqtt

/-- The bytes of an ASCII literal. -/
def ascii (s : String) : List UInt8 := s.toList.map fun c => c.toNat.toUInt8

/-- A C string: the bytes before the terminating NUL. -/
structure CString where
  bytes : List UInt8
  nul_free : 0 ∉ bytes
  deriving DecidableEq

namespace CString

@[ext]
theorem ext {s t : CString} (h : s.bytes = t.bytes) : s = t := by
  cases s
  cases t
  simp_all

theorem nul_free_takeWhile (l : List UInt8) : 0 ∉ l.takeWhile (· ≠ 0) := by
  intro h
  have := List.mem_takeWhile_imp h
  simp at this

/-- The string a buffer holds: its bytes up to the first NUL. -/
def ofBytes (l : List UInt8) : CString := ⟨l.takeWhile (· ≠ 0), nul_free_takeWhile l⟩

/-- The C string of an ASCII literal. -/
def lit (s : String) : CString := ofBytes (ascii s)

/-- The empty string. -/
def empty : CString := ⟨[], List.not_mem_nil⟩

instance : Inhabited CString := ⟨empty⟩

theorem bytes_ofBytes {l : List UInt8} (h : 0 ∉ l) : (ofBytes l).bytes = l := by
  rw [ofBytes, List.takeWhile_eq_self_iff]
  intro b hb
  simpa using fun h0 : b = 0 => h (h0 ▸ hb)

@[simp]
theorem ofBytes_bytes (s : CString) : ofBytes s.bytes = s := ext (bytes_ofBytes s.nul_free)

end CString

/-! ## Characters and searches -/

/-- The byte at an offset of a string, the terminating NUL included. -/
def charAt (s : List UInt8) (i : ℕ) : UInt8 := s.getD i 0

/-- The offset of the first occurrence of `c`; the NUL is found at the end. -/
def strchr (s : List UInt8) (c : UInt8) : Option ℕ :=
  if c = 0 then some s.length else s.findIdx? (· == c)

/-- The offset of the first occurrence of the string `needle`. -/
def strstr : List UInt8 → List UInt8 → Option ℕ
  | [], needle => if needle = [] then some 0 else none
  | b :: s, needle => if needle <+: b :: s then some 0 else (strstr s needle).map (· + 1)

/-- A blank: a space or a tab. -/
def isBlank (b : UInt8) : Bool := b == 32 || b == 9

/-- The text without the blanks at both ends. -/
def trim (s : List UInt8) : List UInt8 := (s.dropWhile isBlank).rdropWhile isBlank

theorem charAt_of_lt {s : List UInt8} {i : ℕ} (hi : i < s.length) : charAt s i = s[i] := by
  simp [charAt, hi]

theorem charAt_of_le {s : List UInt8} {i : ℕ} (hi : s.length ≤ i) : charAt s i = 0 := by
  simp [charAt, hi]

/-- A character found in a string without it is none at all. -/
theorem strchr_isSome_iff {s : List UInt8} {c : UInt8} (hc : c ≠ 0) :
    (strchr s c).isSome ↔ c ∈ s := by
  simp [strchr, hc, List.findIdx?_isSome]

/-- A blank is what `strchr(" \t", ·)` finds, the NUL apart. -/
theorem strchr_blanks {c : UInt8} (hc : c ≠ 0) : (strchr [32, 9] c).isSome = isBlank c := by
  rw [Bool.eq_iff_iff, strchr_isSome_iff hc]
  simp [isBlank]

/-- The bytes before and after the first occurrence of a character. -/
theorem strchr_eq_some {s : List UInt8} {c : UInt8} {i : ℕ} (hc : c ≠ 0)
    (h : strchr s c = some i) :
    s.take i = s.takeWhile (· != c) ∧ s.drop i = s.dropWhile (· != c) := by
  rw [strchr, if_neg hc, List.findIdx?_eq_some_iff_findIdx_eq] at h
  have hi : s.findIdx (fun b => !(b != c)) = i := by simpa [bne] using h.2
  exact ⟨by rw [List.takeWhile_eq_take_findIdx_not, hi],
    by rw [List.dropWhile_eq_drop_findIdx_not, hi]⟩

/-- The first occurrence of `needle` is at `i`: it stands there, and nowhere before. -/
theorem strstr_eq_some_iff {s needle : List UInt8} {i : ℕ} :
    strstr s needle = some i ↔
      i ≤ s.length ∧ needle <+: s.drop i ∧ ∀ j < i, ¬needle <+: s.drop j := by
  induction s generalizing i with
  | nil =>
    by_cases h : needle = []
    · subst h
      constructor
      · intro hi
        obtain rfl : 0 = i := by simpa [strstr] using hi
        simp
      · rintro ⟨hi, -, -⟩
        obtain rfl : i = 0 := by simpa using hi
        simp [strstr]
    · simp [strstr, h]
  | cons b s ih =>
    -- it stands at the start, or its occurrences are those in `s`, shifted
    by_cases h : needle <+: b :: s
    · simp only [strstr, if_pos h, Option.some.injEq]
      constructor
      · rintro rfl
        exact ⟨Nat.zero_le _, h, fun j hj => absurd hj (Nat.not_lt_zero j)⟩
      · rintro ⟨-, -, hj⟩
        by_contra hi
        exact hj 0 (Nat.pos_of_ne_zero fun h0 => hi h0.symm) h
    · simp only [strstr, if_neg h, Option.map_eq_some_iff, ih]
      constructor
      · rintro ⟨k, ⟨hk, hp, hj⟩, rfl⟩
        refine ⟨Nat.succ_le_succ hk, hp, fun j hjk => ?_⟩
        cases j with
        | zero => exact h
        | succ j => exact hj j (Nat.lt_of_succ_lt_succ hjk)
      · rintro ⟨hi, hp, hj⟩
        cases i with
        | zero => exact absurd hp h
        | succ i =>
          exact ⟨i, ⟨Nat.le_of_succ_le_succ hi, hp, fun j hji => hj (j + 1) (Nat.succ_lt_succ hji)⟩,
            rfl⟩

/-- A string that stands somewhere is found, there or before. -/
theorem exists_strstr {s needle : List UInt8} {i : ℕ} (hi : i ≤ s.length)
    (h : needle <+: s.drop i) : ∃ p ≤ i, strstr s needle = some p := by
  classical
  have hex : ∃ i, i ≤ s.length ∧ needle <+: s.drop i := ⟨i, hi, h⟩
  obtain ⟨hle, hp⟩ := Nat.find_spec hex
  refine ⟨Nat.find hex, Nat.find_min' hex ⟨hi, h⟩, strstr_eq_some_iff.2 ⟨hle, hp, fun j hj hjp => ?_⟩⟩
  exact Nat.find_min hex hj ⟨by omega, hjp⟩

/-! ## Comparison up to case -/

/-- The lower case of a letter. -/
def tolower (b : UInt8) : UInt8 := if 65 ≤ b ∧ b ≤ 90 then b + 32 else b

/-- The difference of two strings in their first `n` characters, up to case. -/
def strncasecmp : List UInt8 → List UInt8 → ℕ → ℤ
  | _, _, 0 => 0
  | s, t, n + 1 =>
    let a := tolower (charAt s 0)
    let b := tolower (charAt t 0)
    if a ≠ b then a.toNat - b.toNat
    else if a = 0 then 0
    else strncasecmp s.tail t.tail n

/-! ## Blanks -/

/-- A text is its trimmed text between blanks. -/
theorem exists_trim (s : List UInt8) :
    ∃ pre post, s = pre ++ trim s ++ post ∧ (∀ b ∈ pre, isBlank b) ∧ ∀ b ∈ post, isBlank b := by
  refine ⟨s.takeWhile isBlank, (s.dropWhile isBlank).rtakeWhile isBlank, ?_, fun b hb => ?_,
    fun b hb => ?_⟩
  · rw [trim, List.append_assoc, List.rdropWhile_append_rtakeWhile, List.takeWhile_append_dropWhile]
  · exact List.mem_takeWhile_imp hb
  · exact List.mem_rtakeWhile_imp hb

/-! ## Numbers -/

/-- The white space `strtol` skips. -/
def isSpace (b : UInt8) : Bool := b == 32 || (9 ≤ b && b ≤ 13)

/-- A decimal digit. -/
def isDigit (b : UInt8) : Bool := 48 ≤ b && b ≤ 57

/-- The value of a sequence of decimal digits. -/
def digitsValue (l : List UInt8) : ℤ := l.foldl (fun n d => 10 * n + (d.toNat - 48)) 0

/-- The decimal number a text starts with, within the range of a 64-bit `long`. -/
def strtol (s : List UInt8) : ℤ :=
  match s.dropWhile isSpace with
  | 45 :: t => max (-digitsValue (t.takeWhile isDigit)) (-2 ^ 63)
  | 43 :: t => min (digitsValue (t.takeWhile isDigit)) (2 ^ 63 - 1)
  | t => min (digitsValue (t.takeWhile isDigit)) (2 ^ 63 - 1)

/-- The decimal number a text starts with, as a 32-bit `int`. -/
def atoi (s : CString) : ℤ := (strtol s.bytes).bmod (2 ^ 32)

theorem neg_two_pow_le_atoi (s : CString) : -2 ^ 31 ≤ atoi s := by
  have := Int.le_bmod (x := strtol s.bytes) (m := 2 ^ 32) (by norm_num)
  rw [atoi]
  simpa using this

/-- The decimal digits of a number. -/
def decimal (n : ℕ) : List UInt8 := (Nat.toDigits 10 n).map fun c => c.toNat.toUInt8

/-- The text `printf` writes for `%d`. -/
def decimalInt (n : ℤ) : List UInt8 :=
  if n < 0 then 45 :: decimal n.natAbs else decimal n.natAbs

example : atoi (CString.lit " -12 x") = -12 ∧ atoi (CString.lit "4294967297") = 1 ∧
    atoi CString.empty = 0 := by decide

end Cmqtt
