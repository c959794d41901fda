import Cmqtt.Config.Section

/-!
# What a lookup reads

A search does not read the whole file: it ends at the entry that matches the
key, or at the header of the next section. The lines it gets to (`reached`) are
all that matters, for what it returns as well as for the buffers:

* if all of them fit `tmpLine`, the value returned is found among them
  (`fileValue`), whatever bytes they have: of a line with NUL bytes, only the
  part before the first one counts (`cut`);
* if one of them does not, it overflows `tmpLine`.

`getInitKey_eq_fileValue` and `getInitKey_eq_overflow` say so for every regular
file, so that the two cases exclude each other. The decision on a line is split
accordingly (`processLine_cases`): the search skips the line, goes on after it,
ends there, or overflows `tmpstr` with a title that is too long.
-/

namespace Cmqtt.GetInitKey

variable {title key : CString} {flag : Bool} {l : List UInt8} {ls : List (List UInt8)}

/-! ## Lines that are passed -/

/-- The string `tmpLine` holds of a line: what stands before its first NUL. -/
def cut (l : List UInt8) : List UInt8 := (CString.ofBytes l).bytes

/-- Whether the search is in the section after a line, if it goes on there. -/
def pass (title key : CString) (flag : Bool) (l : List UInt8) : Option Bool :=
  if isSkipped l then some flag
  else if flag then
    if isHeader l || (isEntry l && entryMatches key l) then none else some true
  else if TitleFits title then some (header title == l) else none

/-- The lines that are skipped by `continue`: empty ones, comments, and entries of
    the section with a word that ends in the key. -/
def skips (key : CString) (flag : Bool) (l : List UInt8) : Bool :=
  isSkipped l || (flag && !isHeader l && isEntry l && isPrefixed key.bytes (keyText l))

/-- The lines the search gets to. -/
def reached (title key : CString) : Bool → List (List UInt8) → List (List UInt8)
  | _, [] => []
  | flag, l :: ls => l ::
    if 1024 ≤ l.length then []
    else
      match pass title key flag (cut l) with
      | none => []
      | some flag => reached title key flag ls

/-- The value a file gives for a key: that of the first entry to match it among
    the lines the search gets to. -/
def fileValue (content : List UInt8) (title key : CString) : CString :=
  lookup key (entryLines title ((reached title key false (lines content)).map cut))

theorem lineOk_cut (hl : l.length ≤ 1023) : LineOk (cut l) :=
  ⟨(CString.ofBytes l).nul_free, (List.takeWhile_sublist _).length_le.trans hl⟩

/-- The decision on a line that fits `tmpLine`: the search skips it, goes on after
    it, ends there, or overflows `tmpstr`. -/
theorem processLine_cases (hl : l.length ≤ 1023) (hflag : flag → TitleFits title) :
    (processLine title key flag l = .ok .skip ∧ skips key flag (cut l) ∧
      pass title key flag (cut l) = some flag) ∨
    (∃ flag', processLine title key flag l = .ok (.next flag') ∧
      skips key flag (cut l) = false ∧ pass title key flag (cut l) = some flag' ∧
      TitleFits title) ∨
    ((processLine title key flag l = .ok .stop ∨
        ∃ value, processLine title key flag l = .ok (.ret value)) ∧
      skips key flag (cut l) = false ∧ pass title key flag (cut l) = none ∧ TitleFits title) ∨
    (processLine title key flag l = .error (.overflow .tmpstr) ∧ isSkipped (cut l) = false ∧
      pass title key flag (cut l) = none ∧ ¬TitleFits title) := by
  have h := lineOk_cut hl
  rw [processLine_ofBytes, ← cut]
  generalize cut l = s at h
  by_cases hs : isSkipped s
  · exact .inl ⟨processLine_skipped h hs, by simp [skips, hs], by simp [pass, hs]⟩
  · rw [Bool.not_eq_true] at hs
    cases flag with
    | false =>
      -- before the section, the line is compared with its header
      rw [processLine_outside h hs]
      by_cases ht : TitleFits title
      · refine .inr (.inl ⟨_, compareTitle_of_fits ht, ?_, ?_, ht⟩)
        · simp [skips, hs]
        · simp [pass, hs, ht]
      · refine .inr (.inr (.inr ⟨compareTitle_of_not_fits ht, hs, ?_, ht⟩))
        simp [pass, hs, ht]
    | true =>
      have ht := hflag rfl
      by_cases hh : isHeader s
      · refine .inr (.inr (.inl ⟨.inl (processLine_header h hh), ?_, ?_, ht⟩))
        · simp [skips, hs, hh]
        · simp [pass, hs, hh]
      · rw [Bool.not_eq_true] at hh
        by_cases he : isEntry s
        · by_cases hm : entryMatches key s
          · refine .inr (.inr (.inl ⟨.inr ⟨_, processLine_match h hh he hm⟩, ?_, ?_, ht⟩))
            · simp [skips, hs, isPrefixed_of_keyMatches hm]
            · simp [pass, hs, he, hm]
          · rw [Bool.not_eq_true] at hm
            rw [processLine_mismatch h hh he hm]
            by_cases hp : isPrefixed key.bytes (keyText s)
            · exact .inl ⟨by rw [if_pos hp], by simp [skips, hh, he, hp],
                by simp [pass, hs, hh, hm]⟩
            · exact .inr (.inl ⟨true, by rw [if_neg hp], by simp [skips, hs, hp],
                by simp [pass, hs, hh, hm], ht⟩)
        · -- a line without `=` is compared with the header once more
          have hne : equals ∉ s := by simpa [isEntry, hs] using he
          refine .inr (.inl ⟨true, ?_, ?_, ?_, ht⟩)
          · rw [processLine_plain h hs hh hne, compareTitle_of_fits ht]
            rfl
          · simp [skips, hs, he]
          · simp [pass, hs, hh, he]

/-! ## The scan of the lines that are reached -/

theorem reached_subset : reached title key flag ls ⊆ ls := by
  induction ls generalizing flag with
  | nil => exact List.Subset.refl _
  | cons l ls ih =>
    rw [reached]
    refine List.cons_subset_cons l ?_
    split_ifs
    · exact List.nil_subset _
    · split
      · exact List.nil_subset _
      · exact ih

/-- The lines that are reached decide on the scan, up to their first NULs. -/
theorem scanLines_reached (ht : TitleFits title)
    (hls : ∀ l ∈ reached title key flag ls, l.length ≤ 1023) :
    (scanLines title key flag ls).map answer =
      (scanLines title key flag ((reached title key flag ls).map cut)).map answer := by
  induction ls generalizing flag with
  | nil => rfl
  | cons l ls ih =>
    have hl : l.length ≤ 1023 := hls l (by simp [reached])
    have hcut := (lineOk_cut hl).short
    have hnot : ¬1024 ≤ l.length := by omega
    simp only [reached, if_neg hnot] at hls ⊢
    have hsame : processLine title key flag (cut l) = processLine title key flag l :=
      (processLine_ofBytes l).symm
    rw [List.map_cons, scanLines_cons (by omega), scanLines_cons (by omega), hsame]
    obtain ⟨hp, -, hpass⟩ | ⟨flag', hp, -, hpass, -⟩ | ⟨hp | ⟨value, hp⟩, -, hpass, -⟩ |
      ⟨-, -, -, hfits⟩ := @processLine_cases title key flag l hl fun _ => ht
    · simp only [hpass, List.mem_cons, forall_eq_or_imp] at hls ⊢
      rw [hp]
      exact ih hls.2
    · simp only [hpass, List.mem_cons, forall_eq_or_imp] at hls ⊢
      rw [hp]
      exact ih hls.2
    · rw [hp]
      rfl
    · rw [hp]
      rfl
    · exact absurd ht hfits

/-- A line that is reached and does not fit overflows `tmpLine`. -/
theorem scanLines_overflow (ht : TitleFits title)
    (hlong : ∃ l ∈ reached title key flag ls, 1024 ≤ l.length) :
    scanLines title key flag ls = .error (.overflow .tmpLine) := by
  induction ls generalizing flag with
  | nil => simp [reached] at hlong
  | cons l ls ih =>
    rcases Nat.lt_or_ge l.length 1024 with hl | hl
    · have hnot : ¬1024 ≤ l.length := by omega
      simp only [reached, List.mem_cons, exists_eq_or_imp, hnot, if_false, false_or] at hlong
      rw [scanLines_cons hl]
      obtain ⟨hp, -, hpass⟩ | ⟨flag', hp, -, hpass, -⟩ | ⟨-, -, hpass, -⟩ | ⟨-, -, -, hfits⟩ :=
        @processLine_cases title key flag l (by omega) fun _ => ht
      · simp only [hpass] at hlong
        rw [hp]
        exact ih hlong
      · simp only [hpass] at hlong
        rw [hp]
        exact ih hlong
      · -- the search ends before that line
        simp [hpass] at hlong
      · exact absurd ht hfits
    · exact scanLines_cons_long hl

end Cmqtt.GetInitKey

namespace Cmqtt

open GetInitKey

variable {content : List UInt8} {title key : CString}

/-- If the lines the search gets to fit `tmpLine`, `GetInitKey` returns the value
    the file gives for the key. -/
theorem getInitKey_eq_fileValue (ht : TitleFits title)
    (hls : ∀ l ∈ reached title key false (lines content), l.length ≤ 1023) :
    getInitKey (some (.regular content)) title key = .ok (fileValue content title key) := by
  have hok : ∀ l ∈ (reached title key false (lines content)).map cut, LineOk l := by
    intro l hl
    obtain ⟨l', hl', rfl⟩ := List.mem_map.1 hl
    exact lineOk_cut (hls l' hl')
  rw [getInitKey_regular, scanLines_reached ht hls, scanLines_of_fits ht hok]
  rfl

/-- Otherwise, it overflows `tmpLine`. -/
theorem getInitKey_eq_overflow (ht : TitleFits title)
    (hlong : ∃ l ∈ reached title key false (lines content), 1024 ≤ l.length) :
    getInitKey (some (.regular content)) title key = .error (.overflow .tmpLine) := by
  rw [getInitKey_regular, scanLines_overflow ht hlong]
  rfl

end Cmqtt
