import Cmqtt.Config.Lines

/-!
# Sections and entries

What a lookup is for, in terms of lines: the section of a title is what stands
after the first line equal to its header and before the next line starting
with `[` (`sectionLines`); its entries are its lines with a `=` that are not
comments (`entryLines`); a lookup gives the value of the first entry matching
the key (`lookup`).

An entry matches a key as the program decides it (`keyMatches`): by the first
occurrence of the key in the text before `=`, which has to stand between the
ends of that text or blanks. This is not the same as the text being the key:
the key may be one of several words.

On lines that fit `tmpLine`, the scan is the lookup in the entries of the
section (`scanLines_of_fits`), provided that the header of the section fits its
buffer, too; otherwise the scan overflows that buffer at the first line it does
not skip (`scanLines_of_not_fits`).
-/

namespace Cmqtt.GetInitKey

variable {title key : CString} {flag : Bool} {l : List UInt8} {ls : List (List UInt8)}

/-! ## Lines -/

/-- A line that is skipped: empty or a comment. -/
def isSkipped : List UInt8 → Bool
  | [] => true
  | b :: _ => b == 35 || b == 59

/-- A line that starts with `[`. -/
def isHeader (l : List UInt8) : Bool := l.head? == some bracket

/-- A line with a key and a value. -/
def isEntry (l : List UInt8) : Bool := !isSkipped l && l.elem equals

/-- The text before the first `=`. -/
def keyText (l : List UInt8) : List UInt8 := l.takeWhile (· != equals)

/-- The text after the first `=`, without leading blanks. -/
def valueText (l : List UInt8) : List UInt8 :=
  ((l.dropWhile (· != equals)).drop 1).dropWhile isBlank

/-- The lines of the section of a title. -/
def sectionLines (title : CString) (ls : List (List UInt8)) : List (List UInt8) :=
  ((ls.dropWhile (· != header title)).drop 1).takeWhile fun l => !isHeader l

/-- The entries of the section of a title. -/
def entryLines (title : CString) (ls : List (List UInt8)) : List (List UInt8) :=
  (sectionLines title ls).filter isEntry

/-- The key matches the text before `=`: its first occurrence there is preceded
    and followed by a blank or an end of the text. -/
def keyMatches (key k : List UInt8) : Bool :=
  match strstr k key with
  | none => false
  | some p => (p == 0 || isBlank (charAt k (p - 1))) &&
      (p + key.length == k.length || isBlank (charAt k (p + key.length)))

/-- The key matches an entry. -/
def entryMatches (key : CString) (l : List UInt8) : Bool := keyMatches key.bytes (keyText l)

/-- The key is found in the text before `=`, but as the end of a longer word: a
    character that is not a blank stands before it. -/
def isPrefixed (key k : List UInt8) : Bool :=
  match strstr k key with
  | none => false
  | some p => !(p == 0 || isBlank (charAt k (p - 1)))

/-- The first of the entries to match the key, with its value, if any. -/
def found (key : CString) (entries : List (List UInt8)) : Option (List UInt8 × CString) :=
  (entries.find? (entryMatches key)).map fun l => (l, .ofBytes (valueText l))

/-- The value of the first of the entries to match the key, or the empty string. -/
def lookup (key : CString) (entries : List (List UInt8)) : CString := answer (found key entries)

/-- The header of a title fits `tmpstr`. -/
def TitleFits (title : CString) : Prop := (header title).length < 1024

instance : Decidable (TitleFits title) := inferInstanceAs (Decidable (_ < _))

theorem titleFits_iff : TitleFits title ↔ title.bytes.length ≤ 1021 := by
  simp only [TitleFits, header, List.length_append]
  change 1 + title.bytes.length + 1 < 1024 ↔ _
  omega

/-- A line that fits `tmpLine` and is the string it holds there. -/
structure LineOk (l : List UInt8) : Prop where
  nul_free : 0 ∉ l
  short : l.length ≤ 1023

/-- A file without NUL whose lines fit `tmpLine`. -/
structure ContentOk (content : List UInt8) : Prop where
  nul_free : 0 ∉ content
  short : ∀ l ∈ lines content, l.length ≤ 1023

/-- The bytes of the lines of a file are bytes of the file. -/
theorem mem_of_mem_lines {content : List UInt8} {b : UInt8} (hl : l ∈ lines content)
    (hb : b ∈ l) : b ∈ content := by
  induction content generalizing l with
  | nil =>
    obtain rfl : l = [] := by simpa [lines] using hl
    exact hb
  | cons c content ih =>
    rw [lines, List.splitOn_cons_eq_if_modifyHead] at hl
    split at hl
    · rcases List.mem_cons.1 hl with rfl | hl
      · exact absurd hb List.not_mem_nil
      · exact List.mem_cons_of_mem _ (ih hl hb)
    · obtain ⟨l₀, ls₀, h₀⟩ := List.exists_cons_of_ne_nil (List.splitOn_ne_nil newline content)
      rw [h₀, List.modifyHead_cons] at hl
      rw [lines, h₀] at ih
      rcases List.mem_cons.1 hl with rfl | hl
      · rcases List.mem_cons.1 hb with rfl | hb
        · exact List.mem_cons_self
        · exact List.mem_cons_of_mem _ (ih List.mem_cons_self hb)
      · exact List.mem_cons_of_mem _ (ih (List.mem_cons_of_mem _ hl) hb)

theorem ContentOk.lineOk {content : List UInt8} (h : ContentOk content) :
    ∀ l ∈ lines content, LineOk l :=
  fun l hl => ⟨fun h0 => h.nul_free (mem_of_mem_lines hl h0), h.short l hl⟩

theorem isHeader_header : isHeader (header title) := rfl

theorem isSkipped_header : isSkipped (header title) = false := rfl

/-! ## The decision on a line -/

theorem charAt_zero_of_isSkipped (h0 : 0 ∉ l) :
    (charAt l 0 == 0 || (strchr (ascii "#;") (charAt l 0)).isSome) = isSkipped l := by
  cases l with
  | nil => rfl
  | cons b l =>
    have hb : b ≠ 0 := fun h => h0 (h ▸ List.mem_cons_self)
    have : (strchr (ascii "#;") b).isSome = (b == 35 || b == 59) := by
      rw [Bool.eq_iff_iff, strchr_isSome_iff hb]
      simp [show ascii "#;" = [35, 59] from rfl]
    have hb0 : (b == 0) = false := by simpa using hb
    change (b == 0 || (strchr (ascii "#;") b).isSome) = _
    rw [hb0, Bool.false_or, this, isSkipped]

theorem charAt_zero_beq_bracket : (charAt l 0 == bracket) = isHeader l := by
  cases l <;> rfl

/-- The decision on a line, in terms of the line. -/
theorem processLine_eq (h : LineOk l) : processLine title key flag l =
    if isSkipped l then .ok .skip
    else if isHeader l && flag then .ok .stop
    else
      match if isHeader l then none else strchr l equals with
      | some tmp => if flag then matchEntry key l tmp else compareTitle title flag l
      | none => compareTitle title flag l := by
  have hbody := processLine.eq_1 title key flag l
  simp only [CString.bytes_ofBytes h.nul_free, charAt_zero_of_isSkipped h.nul_free,
    charAt_zero_beq_bracket] at hbody
  exact hbody

theorem processLine_skipped (h : LineOk l) (hs : isSkipped l) :
    processLine title key flag l = .ok .skip := by
  rw [processLine_eq h, if_pos hs]

theorem isSkipped_of_isHeader (hh : isHeader l) : isSkipped l = false := by
  cases l with
  | nil => cases hh
  | cons b l =>
    obtain rfl : b = bracket := by simpa [isHeader] using hh
    rfl

/-- A header ends the search in the section. -/
theorem processLine_header (h : LineOk l) (hh : isHeader l) :
    processLine title key true l = .ok .stop := by
  rw [processLine_eq h, if_neg (by simp [isSkipped_of_isHeader hh]), if_pos (by simp [hh])]

/-- Outside of the section, a line is compared with the header. -/
theorem processLine_outside (h : LineOk l) (hs : isSkipped l = false) :
    processLine title key false l = compareTitle title false l := by
  rw [processLine_eq h, if_neg (by simp [hs]), if_neg (by simp)]
  split <;> rfl

/-- In the section, so is a line without `=`. -/
theorem processLine_plain (h : LineOk l) (hs : isSkipped l = false) (hh : isHeader l = false)
    (he : equals ∉ l) : processLine title key true l = compareTitle title true l := by
  have : strchr l equals = none := by
    rw [← Option.not_isSome_iff_eq_none, strchr_isSome_iff (by decide)]
    exact he
  rw [processLine_eq h, if_neg (by simp [hs]), if_neg (by simp [hh]), if_neg (by simp [hh]), this]

theorem nul_free_header : 0 ∉ header title := by
  simp only [header, List.mem_append, not_or]
  exact ⟨⟨by decide, title.nul_free⟩, by decide⟩

theorem compareTitle_of_fits (ht : TitleFits title) :
    compareTitle title flag l = .ok (.next (flag || header title == l)) := by
  have h : (header title).length < 1024 := ht
  rw [compareTitle, strcpy, if_pos h]
  change Except.ok (Exit.next (flag || (CString.ofBytes (header title)).bytes == l)) = _
  rw [CString.bytes_ofBytes nul_free_header]

theorem compareTitle_of_not_fits (ht : ¬TitleFits title) :
    compareTitle title flag l = .error (.overflow .tmpstr) := by
  have h : ¬(header title).length < 1024 := ht
  rw [compareTitle, strcpy, if_neg h]
  rfl

/-! ## Matching an entry -/

/-- The text before `=` and the text after it, as `strchr` gives them. -/
theorem exists_strchr_equals (he : equals ∈ l) : ∃ tmp, strchr l equals = some tmp ∧
    l.take tmp = keyText l ∧ (l.drop (tmp + 1)).dropWhile isBlank = valueText l := by
  obtain ⟨tmp, htmp⟩ := Option.isSome_iff_exists.1 ((strchr_isSome_iff (by decide)).2 he)
  obtain ⟨hk, hv⟩ := strchr_eq_some (by decide) htmp
  refine ⟨tmp, htmp, hk, ?_⟩
  rw [valueText, ← hv, List.drop_drop]

theorem valueText_sublist : (valueText l).Sublist l :=
  (List.dropWhile_sublist _).trans ((List.drop_sublist _ _).trans (List.dropWhile_sublist _))

theorem keyText_sublist : (keyText l).Sublist l := List.takeWhile_sublist _

/-- A position in a string without NUL is past its end, or a character of it. -/
theorem charAt_eq_zero_iff (h0 : 0 ∉ l) {i : ℕ} : charAt l i = 0 ↔ l.length ≤ i := by
  refine ⟨fun h => ?_, charAt_of_le⟩
  by_contra hi
  rw [charAt_of_lt (by omega)] at h
  exact h0 (h ▸ List.getElem_mem _)

/-- The needle ends within the text it is found in. -/
theorem strstr_add_length_le {k needle : List UInt8} {p : ℕ} (h : strstr k needle = some p) :
    p + needle.length ≤ k.length := by
  obtain ⟨hp, hpre, -⟩ := strstr_eq_some_iff.1 h
  have := hpre.length_le
  rw [List.length_drop] at this
  omega

/-- The test of the character before the key. -/
theorem strchr_before {k : List UInt8} (h0 : 0 ∉ k) {p : ℕ} (hp : p ≤ k.length) :
    (0 < p && (strchr (ascii " \t") (charAt k (p - 1))).isNone) =
      !(p == 0 || isBlank (charAt k (p - 1))) := by
  rcases Nat.eq_zero_or_pos p with rfl | hpos
  · rfl
  · have hc : charAt k (p - 1) ≠ 0 := fun h => by
      have := (charAt_eq_zero_iff h0).1 h
      omega
    have hb := strchr_blanks hc
    rw [show ascii " \t" = [32, 9] from rfl, ← hb]
    simp [hpos, Nat.pos_iff_ne_zero.1 hpos, Option.not_isSome]

/-- The test of the character after the key. -/
theorem strchr_after {k : List UInt8} (h0 : 0 ∉ k) {q : ℕ} (hq : q ≤ k.length) :
    (charAt k q == 0 || (strchr (ascii " \t") (charAt k q)).isSome) =
      (q == k.length || isBlank (charAt k q)) := by
  rcases Nat.lt_or_eq_of_le hq with hlt | rfl
  · have hc : charAt k q ≠ 0 := fun h => by
      have := (charAt_eq_zero_iff h0).1 h
      omega
    rw [show ascii " \t" = [32, 9] from rfl, strchr_blanks hc, beq_eq_false_iff_ne.2 hc,
      beq_eq_false_iff_ne.2 hlt.ne]
  · simp [charAt_of_le le_rfl]

theorem isPrefixed_of_keyMatches {key k : List UInt8} (hm : keyMatches key k) :
    isPrefixed key k = false := by
  simp only [keyMatches, isPrefixed] at hm ⊢
  split at hm
  next => cases hm
  next p hp =>
    rw [Bool.and_eq_true] at hm
    simp only [hm.1, Bool.not_true]

/-- The decision on an entry: its value if it matches the key, and otherwise
    the next line, one way or the other. -/
theorem matchEntry_eq {tmp : ℕ} (h : LineOk l) (hk : l.take tmp = keyText l)
    (hv : (l.drop (tmp + 1)).dropWhile isBlank = valueText l) :
    matchEntry key l tmp = .ok (if isPrefixed key.bytes (keyText l) then .skip
      else if entryMatches key l then .ret (.ofBytes (valueText l)) else .next true) := by
  have h0 : 0 ∉ keyText l := fun hm => h.nul_free (keyText_sublist.mem hm)
  have hs : (valueText l).length < 1024 :=
    Nat.lt_succ_of_le (valueText_sublist.length_le.trans h.short)
  rw [entryMatches, keyMatches, isPrefixed, matchEntry, hk, hv, strcpy, if_pos hs]
  -- the key is not there, stands in the text as a word, or stands there as a part
  rcases hp : strstr (keyText l) key.bytes with _ | p
  · rfl
  · have hle := strstr_add_length_le hp
    dsimp only
    rw [strchr_before h0 (by omega), strchr_after h0 hle]
    rcases Bool.eq_false_or_eq_true (p == 0 || isBlank (charAt (keyText l) (p - 1))) with hb | hb
    · rcases Bool.eq_false_or_eq_true (p + key.bytes.length == (keyText l).length ||
        isBlank (charAt (keyText l) (p + key.bytes.length))) with ha | ha
      · simp only [hb, ha]
        rfl
      · simp only [hb, ha]
        rfl
    · simp only [hb]
      rfl

theorem processLine_entry (h : LineOk l) (hh : isHeader l = false) (he : isEntry l) :
    ∃ tmp, processLine title key true l = matchEntry key l tmp ∧ l.take tmp = keyText l ∧
      (l.drop (tmp + 1)).dropWhile isBlank = valueText l := by
  obtain ⟨hs, he⟩ : isSkipped l = false ∧ equals ∈ l := by simpa [isEntry] using he
  obtain ⟨tmp, htmp, hk, hv⟩ := exists_strchr_equals he
  refine ⟨tmp, ?_, hk, hv⟩
  rw [processLine_eq h, if_neg (by simp [hs]), if_neg (by simp [hh]), if_neg (by simp [hh]), htmp]
  rfl

/-- An entry of the section that matches the key gives its value. -/
theorem processLine_match (h : LineOk l) (hh : isHeader l = false) (he : isEntry l)
    (hm : entryMatches key l) :
    processLine title key true l = .ok (.ret (.ofBytes (valueText l))) := by
  obtain ⟨tmp, hp, hk, hv⟩ := @processLine_entry title key l h hh he
  rw [hp, matchEntry_eq h hk hv, isPrefixed_of_keyMatches hm, if_neg Bool.false_ne_true, if_pos hm]

/-- An entry of the section that does not match the key is passed over. -/
theorem processLine_mismatch (h : LineOk l) (hh : isHeader l = false) (he : isEntry l)
    (hm : entryMatches key l = false) : processLine title key true l =
      .ok (if isPrefixed key.bytes (keyText l) then .skip else .next true) := by
  obtain ⟨tmp, hp, hk, hv⟩ := @processLine_entry title key l h hh he
  rw [hp, matchEntry_eq h hk hv, hm, if_neg Bool.false_ne_true]

/-! ## The scan -/

theorem scanLines_skipped (h : LineOk l) (hs : isSkipped l) :
    scanLines title key flag (l :: ls) = scanLines title key flag ls := by
  rw [scanLines_cons (Nat.lt_succ_of_le h.short), processLine_skipped h hs]
  rfl

theorem scanLines_header (h : LineOk l) (hh : isHeader l) :
    scanLines title key true (l :: ls) = .ok none := by
  rw [scanLines_cons (Nat.lt_succ_of_le h.short), processLine_header h hh]
  rfl

theorem scanLines_match (h : LineOk l) (hh : isHeader l = false) (he : isEntry l)
    (hm : entryMatches key l) :
    scanLines title key true (l :: ls) = .ok (some (l, .ofBytes (valueText l))) := by
  rw [scanLines_cons (Nat.lt_succ_of_le h.short), processLine_match h hh he hm]
  rfl

theorem scanLines_mismatch (h : LineOk l) (hh : isHeader l = false) (he : isEntry l)
    (hm : entryMatches key l = false) :
    scanLines title key true (l :: ls) = scanLines title key true ls := by
  rw [scanLines_cons (Nat.lt_succ_of_le h.short), processLine_mismatch h hh he hm]
  split <;> rfl

theorem scanLines_plain (ht : TitleFits title) (h : LineOk l) (hh : isHeader l = false)
    (he : isEntry l = false) : scanLines title key true (l :: ls) = scanLines title key true ls := by
  by_cases hs : isSkipped l
  · exact scanLines_skipped h hs
  · rw [Bool.not_eq_true] at hs
    have he : equals ∉ l := by simpa [isEntry, hs] using he
    rw [scanLines_cons (Nat.lt_succ_of_le h.short), processLine_plain h hs hh he,
      compareTitle_of_fits ht]
    rfl

theorem scanLines_outside (ht : TitleFits title) (h : LineOk l) :
    scanLines title key false (l :: ls) = scanLines title key (header title == l) ls := by
  by_cases hs : isSkipped l
  · have hne : (header title == l) = false := by
      rw [beq_eq_false_iff_ne]
      rintro rfl
      simp [isSkipped_header] at hs
    rw [scanLines_skipped h hs, hne]
  · rw [scanLines_cons (Nat.lt_succ_of_le h.short), processLine_outside h (by simpa using hs),
      compareTitle_of_fits ht]
    rfl

/-- In the section, the scan looks the key up in its entries. -/
theorem scanLines_section (ht : TitleFits title) (hls : ∀ l ∈ ls, LineOk l) :
    scanLines title key true ls =
      .ok (found key ((ls.takeWhile fun l => !isHeader l).filter isEntry)) := by
  induction ls with
  | nil => rfl
  | cons l ls ih =>
    have h := hls l List.mem_cons_self
    have ih := ih fun l hl => hls l (List.mem_cons_of_mem _ hl)
    by_cases hh : isHeader l
    · -- the next section: the scan ends without a value
      rw [scanLines_header h hh, List.takeWhile_cons_of_neg (by simp [hh])]
      rfl
    · rw [Bool.not_eq_true] at hh
      rw [List.takeWhile_cons_of_pos (by simp [hh])]
      by_cases he : isEntry l
      · rw [List.filter_cons_of_pos he, found]
        by_cases hm : entryMatches key l
        · rw [scanLines_match h hh he hm, List.find?_cons_of_pos hm]
          rfl
        · rw [scanLines_mismatch h hh he (by simpa using hm), List.find?_cons_of_neg hm]
          exact ih
      · rw [scanLines_plain ht h hh (by simpa using he), List.filter_cons_of_neg he]
        exact ih

/-- Before the section, the scan looks for its header. -/
theorem scanLines_of_fits (ht : TitleFits title) (hls : ∀ l ∈ ls, LineOk l) :
    scanLines title key false ls = .ok (found key (entryLines title ls)) := by
  induction ls with
  | nil => rfl
  | cons l ls ih =>
    have hls' : ∀ l ∈ ls, LineOk l := fun l hl => hls l (List.mem_cons_of_mem _ hl)
    rw [scanLines_outside ht (hls l List.mem_cons_self), entryLines, sectionLines]
    by_cases hl : l = header title
    · -- the section starts here
      rw [List.dropWhile_cons_of_neg (by simp [hl]), hl, beq_self_eq_true]
      exact scanLines_section ht hls'
    · rw [List.dropWhile_cons_of_pos (by simpa using hl),
        beq_eq_false_iff_ne.2 fun h => hl h.symm]
      exact ih hls'

/-- With a header too long for its buffer, the scan ends at the first line it
    does not skip. -/
theorem scanLines_of_not_fits (ht : ¬TitleFits title) (hls : ∀ l ∈ ls, LineOk l) :
    scanLines title key false ls =
      if ls.all isSkipped then .ok none else .error (.overflow .tmpstr) := by
  induction ls with
  | nil => rfl
  | cons l ls ih =>
    have h := hls l List.mem_cons_self
    by_cases hs : isSkipped l
    · rw [scanLines_skipped h hs, ih fun l hl => hls l (List.mem_cons_of_mem _ hl), List.all_cons,
        hs, Bool.true_and]
    · rw [Bool.not_eq_true] at hs
      rw [scanLines_cons (Nat.lt_succ_of_le h.short), processLine_outside h hs,
        compareTitle_of_not_fits ht, List.all_cons, hs]
      rfl

/-- A section whose header is too long for its buffer cannot be in the file. -/
theorem header_notMem (ht : ¬TitleFits title) (hls : ∀ l ∈ ls, LineOk l) :
    header title ∉ ls := fun h => by
  have := (hls _ h).short
  exact ht (Nat.lt_succ_of_le this)

theorem entryLines_of_notMem (h : header title ∉ ls) : entryLines title ls = [] := by
  have : ls.dropWhile (· != header title) = [] := by
    rw [List.dropWhile_eq_nil_iff]
    intro l hl
    simpa using fun hlh : l = header title => h (hlh ▸ hl)
  rw [entryLines, sectionLines, this]
  rfl

/-! ## Strings -/

/-- Only the string in `tmpLine` matters. -/
theorem processLine_ofBytes (l : List UInt8) :
    processLine title key flag l = processLine title key flag (CString.ofBytes l).bytes := by
  unfold processLine
  rw [CString.ofBytes_bytes]

end Cmqtt.GetInitKey

namespace Cmqtt

open GetInitKey

/-- On a file that fits the buffers, `GetInitKey` looks the key up in the
    entries of the section. -/
theorem getInitKey_eq_lookup {content : List UInt8} {title : CString} (h : ContentOk content)
    (ht : TitleFits title) (key : CString) :
    getInitKey (some (.regular content)) title key =
      .ok (lookup key (entryLines title (lines content))) := by
  rw [getInitKey_regular, scanLines_of_fits ht h.lineOk]
  rfl

end Cmqtt
