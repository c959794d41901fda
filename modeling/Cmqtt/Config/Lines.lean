import Cmqtt.Config.GetInitKey

/-!
# The lines of a configuration file

The loop of `GetInitKey` over a regular file is a scan of its lines, the pieces
between its newlines (`scanLines`): every line shorter than `tmpLine` is decided
on, in turn, until the search ends; a longer one overflows `tmpLine` when it is
reached. The end of the file ends the last line, whether or not a newline
stands before it, so that the scan has no case of its own for it
(`getInitKey_regular`).

* `step_byte`, `step_newline`, `step_eof`: an iteration, by what it reads;
* `run_eq_scanLines`: by induction on the bytes, the loop with the beginning
  of a line in `tmpLine` scans that line, completed, and the lines after it.
-/

namespace Cmqtt.GetInitKey

variable {title key : CString}

/-- The lines of a file. -/
def lines (content : List UInt8) : List (List UInt8) := content.splitOn newline

/-- The scan of the lines of a file: the line the search returns at, with the
    value returned, if it returns at a line. -/
def scanLines (title key : CString) :
    Bool → List (List UInt8) → Except Stop (Option (List UInt8 × CString))
  | _, [] => .ok none
  | flag, l :: ls =>
    if 1024 ≤ l.length then .error (.overflow .tmpLine)
    else do
      match ← processLine title key flag l with
      | .skip => scanLines title key flag ls
      | .next flag => scanLines title key flag ls
      | .stop => return none
      | .ret value => return some (l, value)

/-- What is returned: the value found, or the empty string. -/
def answer : Option (List UInt8 × CString) → CString
  | none => .empty
  | some (_, value) => value

/-- A line that fits `tmpLine` is decided on, and the scan goes on. -/
theorem scanLines_cons {flag : Bool} {l : List UInt8} {ls : List (List UInt8)}
    (hl : l.length < 1024) : scanLines title key flag (l :: ls) = do
      match ← processLine title key flag l with
      | .skip => scanLines title key flag ls
      | .next flag => scanLines title key flag ls
      | .stop => return none
      | .ret value => return some (l, value) := by
  rw [scanLines, if_neg (by omega)]

theorem scanLines_cons_long {flag : Bool} {l : List UInt8} {ls : List (List UInt8)}
    (hl : 1024 ≤ l.length) :
    scanLines title key flag (l :: ls) = .error (.overflow .tmpLine) := by
  rw [scanLines, if_pos hl]

/-! ## Iterations -/

/-- The loop over a stream that ends in a read error or not, with `acc` in
    `tmpLine`. -/
def reading (bad : Bool) (bs acc : List UInt8) (flag : Bool) : Loop := ⟨⟨bs, bad, false⟩, acc, flag⟩

theorem step_long {bad : Bool} {bs acc : List UInt8} {flag : Bool} (hacc : 1024 ≤ acc.length) :
    step title key (reading bad bs acc flag) = .error (.overflow .tmpLine) := by
  simp [step, reading, hacc]

theorem step_byte {bad : Bool} {b : UInt8} {bs acc : List UInt8} {flag : Bool}
    (hacc : acc.length < 1024) (hb : b ≠ newline) :
    step title key (reading bad (b :: bs) acc flag) =
      .ok (.inl (reading bad bs (acc ++ [b]) flag)) := by
  simp [step, reading, Stream.fgetc, hb, Nat.not_le.2 hacc]

theorem step_newline {bad : Bool} {bs acc : List UInt8} {flag : Bool} (hacc : acc.length < 1024) :
    step title key (reading bad (newline :: bs) acc flag) =
      endLine title key flag false ⟨bs, bad, false⟩ acc := by
  simp [step, reading, Stream.fgetc, Nat.not_le.2 hacc]

theorem step_eof {bad : Bool} {acc : List UInt8} {flag : Bool} (hacc : acc.length < 1024) :
    step title key (reading bad [] acc flag) =
      endLine title key flag true ⟨[], bad, !bad⟩ acc := by
  simp [step, reading, Stream.fgetc, Nat.not_le.2 hacc]

/-- Once `feof` is true, the loop ends without a value. -/
theorem run_feof {n : ℕ} {acc : List UInt8} {flag : Bool} :
    run title key (n + 1) ⟨⟨[], false, true⟩, acc, flag⟩ = some (.ok .empty) := by
  simp [run, step]

/-! ## The loop as a scan -/

/-- The lines of what is still to be read, after `acc` was read into `tmpLine`. -/
def pending (acc bs : List UInt8) : List (List UInt8) := (lines bs).modifyHead (acc ++ ·)

theorem pending_nil (bs : List UInt8) : pending [] bs = lines bs := by
  rw [pending]
  cases lines bs <;> rfl

theorem pending_eof (acc : List UInt8) : pending acc [] = [acc] := by
  simp [pending, lines]

theorem pending_newline (acc bs : List UInt8) :
    pending acc (newline :: bs) = acc :: lines bs := by
  simp [pending, lines, List.splitOn_cons_eq_if_modifyHead]

theorem pending_byte {b : UInt8} (hb : b ≠ newline) (acc bs : List UInt8) :
    pending acc (b :: bs) = pending (acc ++ [b]) bs := by
  simp only [pending, lines, List.splitOn_cons_eq_if_modifyHead, beq_iff_eq, hb, if_false,
    List.modifyHead_modifyHead]
  congr 1
  funext l
  simp

/-- A pending line is at least as long as what `tmpLine` holds of it. -/
theorem exists_pending (acc bs : List UInt8) :
    ∃ l ls, pending acc bs = l :: ls ∧ acc.length ≤ l.length := by
  obtain ⟨l, ls, h⟩ := List.exists_cons_of_ne_nil (List.splitOn_ne_nil newline bs)
  exact ⟨acc ++ l, ls, by simp [pending, lines, h], by simp⟩

/-- On a regular file, the loop scans the lines still to be read. -/
theorem run_eq_scanLines (bs : List UInt8) : ∀ (acc : List UInt8) (flag : Bool),
    run title key (bs.length + 2) (reading false bs acc flag) =
      some ((scanLines title key flag (pending acc bs)).map answer) := by
  induction bs with
  | nil =>
    intro acc flag
    rw [pending_eof]
    rcases Nat.lt_or_ge acc.length 1024 with hacc | hacc
    · -- the last line: the scan has no lines left, and the loop sees `feof`
      rw [scanLines_cons hacc, List.length_nil, run, step_eof hacc, endLine]
      rcases processLine title key flag acc with e | (_ | _ | _ | v)
      · rfl
      · exact run_feof
      · rfl
      · rfl
      · rfl
    · rw [scanLines_cons_long hacc, List.length_nil, run, step_long hacc]
      rfl
  | cons b bs ih =>
    intro acc flag
    rcases Nat.lt_or_ge acc.length 1024 with hacc | hacc
    · by_cases hb : b = newline
      · -- the line is whole: the next one starts empty
        subst hb
        rw [pending_newline, scanLines_cons hacc, List.length_cons, run, step_newline hacc, endLine]
        rcases processLine title key flag acc with e | (_ | flag' | _ | v)
        · rfl
        · exact pending_nil bs ▸ ih [] flag
        · exact pending_nil bs ▸ ih [] flag'
        · rfl
        · rfl
      · rw [pending_byte hb, List.length_cons, run, step_byte hacc hb]
        exact ih (acc ++ [b]) flag
    · -- `tmpLine` is full, so the line it is a part of is too long as well
      obtain ⟨l, ls, hp, hl⟩ := exists_pending acc (b :: bs)
      rw [hp, scanLines_cons_long (hacc.trans hl), List.length_cons, run, step_long hacc]
      rfl

end Cmqtt.GetInitKey

namespace Cmqtt

open GetInitKey

/-- On a regular file, `GetInitKey` scans the lines of the file. -/
theorem getInitKey_regular (content : List UInt8) (title key : CString) :
    getInitKey (some (.regular content)) title key =
      (scanLines title key false (lines content)).map answer := by
  have := @run_eq_scanLines title key content [] false
  rw [pending_nil] at this
  rw [getInitKey, File.regular, start, Stream.fopen]
  exact congrArg (Option.getD · (.error .hang)) this

end Cmqtt
