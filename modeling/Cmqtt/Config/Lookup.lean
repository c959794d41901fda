import Cmqtt.Config.Section

/-!
# What a lookup returns

Three properties of `GetInitKey` on the files that fit its buffers, all read
off the lookup in the entries of the section (`getInitKey_eq_lookup`):

* *read back* (`getInitKey_eq_readBack`): if the entries of the section have at
  most one word before their `=`, the value returned is that of the first entry
  whose word is the key. The header of the section has to fit its buffer: with
  a title of 1022 bytes, already the first line that is neither empty nor a
  comment overflows it (`getInitKey_long_title`);
* *no foreign value* (`own_key_iff`): a value that is not empty comes from an
  entry whose text before `=` is the key, exactly when the first entry to match
  the key has one word there. With several words, the key is found among them,
  and the value is returned for a key it does not belong to
  (`foreign_value`);
* *locality* (`getInitKey_congr`): whatever is edited outside of the entries of
  the section (`Edit`), the value stays the same.
-/

namespace Cmqtt.GetInitKey

variable {title key : CString} {flag : Bool} {l k : List UInt8} {ls ls' : List (List UInt8)}

/-! ## Matching a key of one word -/

/-- The text before `=` has at most one word: no blank stands inside of it. -/
def OneWord (k : List UInt8) : Prop := ∀ b ∈ trim k, isBlank b = false

instance : Decidable (OneWord k) := List.decidableBAll _ _

/-- The key stands at `p`: its characters are there. -/
theorem charAt_of_prefix_drop {needle : List UInt8} {p j : ℕ} (h : needle <+: k.drop p)
    (hj : j < needle.length) : charAt k (p + j) = charAt needle j := by
  obtain ⟨t, ht⟩ := h
  rw [charAt, charAt, List.getD_eq_getElem?_getD, List.getD_eq_getElem?_getD, ← List.getElem?_drop,
    ← ht, List.getElem?_append_left hj]

/-- Where the blanks around the trimmed text are. -/
theorem isBlank_charAt {pre w post : List UInt8} (hpre : ∀ b ∈ pre, isBlank b)
    (hpost : ∀ b ∈ post, isBlank b) (hw : ∀ b ∈ w, isBlank b = false) {i : ℕ}
    (hi : i < (pre ++ w ++ post).length) :
    isBlank (charAt (pre ++ w ++ post) i) = true ↔
      i < pre.length ∨ pre.length + w.length ≤ i := by
  rw [charAt_of_lt hi]
  simp only [List.length_append] at hi
  rcases Nat.lt_or_ge i (pre ++ w).length with h | h
  · rw [List.getElem_append_left h]
    rw [List.length_append] at h
    rcases Nat.lt_or_ge i pre.length with h' | h'
    · rw [List.getElem_append_left h']
      exact iff_of_true (hpre _ (List.getElem_mem _)) (.inl h')
    · rw [List.getElem_append_right h', hw _ (List.getElem_mem _)]
      exact iff_of_false (by simp) (by omega)
  · rw [List.getElem_append_right h]
    rw [List.length_append] at h
    exact iff_of_true (hpost _ (List.getElem_mem _)) (.inr h)

/-- A text of at most one word: the word is at `a`, and the blanks are around it. -/
theorem OneWord.exists_word (hk : OneWord k) : ∃ a, a + (trim k).length ≤ k.length ∧
    trim k <+: k.drop a ∧ ∀ i < k.length,
      (isBlank (charAt k i) = true ↔ i < a ∨ a + (trim k).length ≤ i) := by
  obtain ⟨pre, post, heq, hpre, hpost⟩ := exists_trim k
  rw [OneWord] at hk
  generalize trim k = w at *
  subst heq
  refine ⟨pre.length, ?_, ?_, fun i hi => isBlank_charAt hpre hpost hk hi⟩
  · simp only [List.length_append]
    omega
  · rw [List.append_assoc, List.drop_left]
    exact List.prefix_append w post

/-- The characters of a key without blanks. -/
theorem not_isBlank_charAt {key : List UInt8} (hkey : ∀ b ∈ key, isBlank b = false) {j : ℕ}
    (hj : j < key.length) : isBlank (charAt key j) ≠ true := by
  rw [charAt_of_lt hj, hkey _ (List.getElem_mem _)]
  exact Bool.false_ne_true

/-- A key that matches a text of at most one word is that word: it lies within
    the word, and blanks or ends are next to it. -/
theorem OneWord.trim_eq {key : List UInt8} (hk : OneWord k) (hne : key ≠ [])
    (hkey : ∀ b ∈ key, isBlank b = false) (hm : keyMatches key k) : trim k = key := by
  obtain ⟨a, ha, hin, hblank⟩ := hk.exists_word
  have hpos : 0 < key.length := List.length_pos_iff.2 hne
  rw [keyMatches] at hm
  rcases hp : strstr k key with _ | p
  · rw [hp] at hm
    cases hm
  · rw [hp] at hm
    obtain ⟨hbefore, hafter⟩ : (p = 0 ∨ isBlank (charAt k (p - 1)) = true) ∧
        (p + key.length = k.length ∨ isBlank (charAt k (p + key.length)) = true) := by
      simpa using hm
    obtain ⟨-, hpre, -⟩ := strstr_eq_some_iff.1 hp
    have hle := strstr_add_length_le hp
    -- the key has no blanks, so it does not leave the word
    have hinside : ∀ j < key.length, ¬(p + j < a ∨ a + (trim k).length ≤ p + j) := by
      intro j hj
      rw [← hblank _ (by omega), charAt_of_prefix_drop hpre hj]
      exact not_isBlank_charAt hkey hj
    have hfirst := hinside 0 hpos
    have hlast := hinside (key.length - 1) (by omega)
    -- and what is next to it is not in the word
    have hstart : p = a := by
      rcases hbefore with h0 | hb
      · omega
      · have := (hblank (p - 1) (by omega)).1 hb
        omega
    have hlen : key.length = (trim k).length := by
      rcases hafter with h0 | hb
      · omega
      · rcases Nat.lt_or_ge (p + key.length) k.length with hlt | hge
        · have := (hblank _ hlt).1 hb
          omega
        · omega
    subst hstart
    exact (List.prefix_of_prefix_length_le hin hpre hlen.ge).eq_of_length hlen.symm

/-- A text that is a key without blanks, between blanks, matches it. -/
theorem keyMatches_of_trim_eq {key : List UInt8} (hne : key ≠ [])
    (hkey : ∀ b ∈ key, isBlank b = false) (ht : trim k = key) : keyMatches key k := by
  have hk : OneWord k := fun b hb => hkey b (ht ▸ hb)
  obtain ⟨a, ha, hin, hblank⟩ := hk.exists_word
  rw [ht] at ha hin hblank
  have hpos : 0 < key.length := List.length_pos_iff.2 hne
  obtain ⟨p, hp, hfound⟩ := exists_strstr (by omega) hin
  -- before the word, there are only blanks
  have hstart : p = a := by
    obtain ⟨-, hpre, -⟩ := strstr_eq_some_iff.1 hfound
    have hc := charAt_of_prefix_drop hpre hpos
    rw [Nat.add_zero] at hc
    by_contra h
    exact not_isBlank_charAt hkey hpos (hc ▸ (hblank p (by omega)).2 (.inl (by omega)))
  subst hstart
  have hbefore : p = 0 ∨ isBlank (charAt k (p - 1)) = true := by
    rcases Nat.eq_zero_or_pos p with h0 | h0
    · exact .inl h0
    · exact .inr ((hblank _ (by omega)).2 (.inl (by omega)))
  have hafter : p + key.length = k.length ∨ isBlank (charAt k (p + key.length)) = true := by
    rcases Nat.lt_or_ge (p + key.length) k.length with h0 | h0
    · exact .inr ((hblank _ h0).2 (.inr le_rfl))
    · exact .inl (by omega)
  rw [keyMatches, hfound]
  simpa using ⟨hbefore, hafter⟩

/-- The value of the first of the entries whose text before `=` is the key,
    between blanks, or the empty string. -/
def readBack (key : CString) (entries : List (List UInt8)) : CString :=
  match entries.find? fun l => trim (keyText l) == key.bytes with
  | none => .empty
  | some l => .ofBytes (valueText l)

/-- On entries of one word, a lookup reads the value of the key back. -/
theorem lookup_eq_readBack {entries : List (List UInt8)} (hne : key.bytes ≠ [])
    (hkey : ∀ b ∈ key.bytes, isBlank b = false) (hw : ∀ l ∈ entries, OneWord (keyText l)) :
    lookup key entries = readBack key entries := by
  have hfind : entries.find? (entryMatches key) =
      entries.find? fun l => trim (keyText l) == key.bytes := by
    induction entries with
    | nil => rfl
    | cons l ls ih =>
      have hl : entryMatches key l = (trim (keyText l) == key.bytes) := by
        rw [Bool.eq_iff_iff, beq_iff_eq, entryMatches]
        exact ⟨(hw l List.mem_cons_self).trim_eq hne hkey, keyMatches_of_trim_eq hne hkey⟩
      rw [List.find?_cons, List.find?_cons, hl, ih fun l hl => hw l (List.mem_cons_of_mem _ hl)]
  rw [lookup, found, hfind, readBack]
  cases entries.find? fun l => trim (keyText l) == key.bytes <;> rfl

end Cmqtt.GetInitKey

namespace Cmqtt

open GetInitKey

variable {content content' : List UInt8} {title key : CString}

/-! ## Reading a value back -/

/-- On a file whose entries have one word before their `=`, `GetInitKey` returns
    the value of the first entry of the section whose word is the key. -/
theorem getInitKey_eq_readBack (h : ContentOk content) (ht : title.bytes.length ≤ 1021)
    (hne : key.bytes ≠ []) (hkey : ∀ b ∈ key.bytes, isBlank b = false)
    (hw : ∀ l ∈ entryLines title (lines content), OneWord (keyText l)) :
    getInitKey (some (.regular content)) title key =
      .ok (readBack key (entryLines title (lines content))) := by
  rw [getInitKey_eq_lookup h (titleFits_iff.2 ht), lookup_eq_readBack hne hkey hw]

/-- Keys that are parts of other keys, of values and of comments. -/
theorem getInitKey_eq_readBack_test :
    getInitKey (some (.regular (ascii "p2=1\n#p2=2\n[test]\np3 = p2\npp2= 45\n p2 =  4=56")))
      (.lit "test") (.lit "p2") = .ok (.lit "4=56") :=
  getInitKey_eq_readBack ⟨by decide, by decide⟩ (by decide) (by decide) (by decide +kernel)
    (by decide)

/-- A title of 1022 bytes: with its brackets and NUL, it does not fit `tmpstr`. -/
def longTitle : CString :=
  ⟨List.replicate 1022 97, fun h => absurd (List.eq_of_mem_replicate h) (by decide)⟩

/-- With a title too long for `tmpstr`, the value is not read back: the header
    of the section overflows the buffer. -/
theorem getInitKey_long_title :
    ¬∀ (content : List UInt8) (title key : CString), ContentOk content → newline ∉ title.bytes →
      key.bytes ≠ [] → (∀ b ∈ key.bytes, isBlank b = false ∧ b ≠ newline ∧ b ≠ equals) →
      (∀ l ∈ entryLines title (lines content), OneWord (keyText l)) →
      getInitKey (some (.regular content)) title key =
        .ok (readBack key (entryLines title (lines content))) := by
  intro hall
  have hok : ContentOk (ascii "x") := ⟨by decide, by decide⟩
  have hlong : ¬TitleFits longTitle := by
    rw [titleFits_iff, longTitle, List.length_replicate]
    decide
  have hentries : entryLines longTitle (lines (ascii "x")) = [] :=
    entryLines_of_notMem (header_notMem hlong hok.lineOk)
  have hread := hall (ascii "x") longTitle (.lit "key") hok
    (fun h => absurd (List.eq_of_mem_replicate h) (by decide)) (by decide) (by decide +kernel)
    (by simp [hentries])
  rw [getInitKey_regular, scanLines_of_not_fits hlong hok.lineOk] at hread
  cases hread

/-! ## Values of other keys -/

/-- The first entry to match the key is the one the search returns at. -/
theorem scanLines_eq_some_iff (h : ContentOk content) {l : List UInt8} {value : CString} :
    scanLines title key false (lines content) = .ok (some (l, value)) ↔
      (entryLines title (lines content)).find? (entryMatches key) = some l ∧
        value = .ofBytes (valueText l) := by
  by_cases ht : TitleFits title
  · rw [scanLines_of_fits ht h.lineOk, found, Except.ok.injEq, Option.map_eq_some_iff]
    constructor
    · rintro ⟨l', hl', heq⟩
      obtain ⟨rfl, rfl⟩ := Prod.mk.inj heq
      exact ⟨hl', rfl⟩
    · rintro ⟨hl, rfl⟩
      exact ⟨l, hl, rfl⟩
  · rw [scanLines_of_not_fits ht h.lineOk, entryLines_of_notMem (header_notMem ht h.lineOk)]
    refine iff_of_false (fun heq => ?_) (fun heq => by cases heq.1)
    split at heq <;> cases heq

/-- What `GetInitKey` returns, if it is not empty, is the value of the line the
    search returns at. -/
theorem exists_scanLines_of_getInitKey {value : CString}
    (hv : getInitKey (some (.regular content)) title key = .ok value) (hne : value ≠ .empty) :
    ∃ l, scanLines title key false (lines content) = .ok (some (l, value)) := by
  rw [getInitKey_regular] at hv
  rcases hs : scanLines title key false (lines content) with e | (_ | ⟨l, v⟩)
  · rw [hs] at hv
    cases hv
  · rw [hs] at hv
    exact absurd (Except.ok.inj hv).symm hne
  · rw [hs] at hv
    obtain rfl : v = value := Except.ok.inj hv
    exact ⟨l, rfl⟩

/-- The value returned for a key is the value of that key. -/
structure OwnKey (content : List UInt8) (title key : CString) : Prop where
  /-- A value that is not empty is the text after `=` of a line of the section
      whose text before `=` is the key. -/
  exists_line : ∀ value, getInitKey (some (.regular content)) title key = .ok value →
    value ≠ .empty → ∃ l ∈ sectionLines title (lines content),
      equals ∈ l ∧ trim (keyText l) = key.bytes ∧ value.bytes = valueText l
  /-- A line of which the key is only a part does not supply the value. -/
  supplied : ∀ l value, scanLines title key false (lines content) = .ok (some (l, value)) →
    value ≠ .empty → trim (keyText l) = key.bytes

/-- The entries of the section are lines of the file. -/
theorem lineOk_of_mem_entryLines (h : ContentOk content) {l : List UInt8}
    (hl : l ∈ entryLines title (lines content)) : LineOk l :=
  h.lineOk l ((List.dropWhile_sublist _).mem
    ((List.drop_sublist _ _).mem ((List.takeWhile_sublist _).mem (List.mem_of_mem_filter hl))))

/-- The value of an entry, as a string. -/
theorem bytes_valueText (h : ContentOk content) {l : List UInt8}
    (hl : l ∈ entryLines title (lines content)) :
    (CString.ofBytes (valueText l)).bytes = valueText l :=
  CString.bytes_ofBytes fun h0 =>
    (lineOk_of_mem_entryLines h hl).nul_free (valueText_sublist.mem h0)

/-- The value returned for a key is the value of that key exactly when the first
    entry to match the key has one word before its `=`, or no value. -/
theorem own_key_iff (h : ContentOk content) (hne : key.bytes ≠ [])
    (hkey : ∀ b ∈ key.bytes, isBlank b = false) :
    OwnKey content title key ↔
      ∀ l, (entryLines title (lines content)).find? (entryMatches key) = some l →
        OneWord (keyText l) ∨ valueText l = [] := by
  -- the line the search returns at, if it is not of one word, has no value
  have hown : ∀ l value, (∀ l, (entryLines title (lines content)).find? (entryMatches key) = some l →
      OneWord (keyText l) ∨ valueText l = []) →
      scanLines title key false (lines content) = .ok (some (l, value)) → value ≠ .empty →
      l ∈ entryLines title (lines content) ∧ trim (keyText l) = key.bytes ∧
        value.bytes = valueText l := by
    intro l value hcond hs hv
    obtain ⟨hfind, rfl⟩ := (scanLines_eq_some_iff h).1 hs
    have hl := List.mem_of_find?_eq_some hfind
    have hm : entryMatches key l := List.find?_some hfind
    rcases hcond l hfind with hw | hnil
    · exact ⟨hl, hw.trim_eq hne hkey hm, bytes_valueText h hl⟩
    · exact absurd (CString.ext (by rw [bytes_valueText h hl, hnil]; rfl)) hv
  constructor
  · intro hkeys l hfind
    by_cases hnil : valueText l = []
    · exact .inr hnil
    · have hv : CString.ofBytes (valueText l) ≠ .empty := fun heq => hnil <| by
        rw [← bytes_valueText h (List.mem_of_find?_eq_some hfind), heq]
        rfl
      have htrim := hkeys.supplied l _ ((scanLines_eq_some_iff h).2 ⟨hfind, rfl⟩) hv
      exact .inl fun b hb => hkey b (htrim ▸ hb)
  · intro hcond
    refine ⟨fun value hget hv => ?_, fun l value hs hv => (hown l value hcond hs hv).2.1⟩
    obtain ⟨l, hs⟩ := exists_scanLines_of_getInitKey hget hv
    obtain ⟨hl, htrim, hval⟩ := hown l value hcond hs hv
    obtain ⟨hsec, hentry⟩ := List.mem_filter.1 hl
    exact ⟨l, hsec, by simpa using (Bool.and_eq_true_iff.1 hentry).2, htrim, hval⟩

/-- Entries of one word: the value returned is that of the key. -/
theorem own_key_iff_topic : OwnKey (ascii "[TOPIC]\n11=0\n1 = 1") (.lit "TOPIC") (.lit "1") :=
  (own_key_iff ⟨by decide, by decide⟩ (by decide) (by decide +kernel)).2 fun l hl => by
    obtain rfl : ascii "1 = 1" = l := Option.some.inj (hl.symm.trans (by decide)).symm
    exact .inl (by decide)

/-- An entry with three words before its `=` gives its value to the key that is
    one of them. -/
theorem foreign_value : ¬∀ (content : List UInt8) (title key : CString), ContentOk content →
    key.bytes ≠ [] → (∀ b ∈ key.bytes, isBlank b = false ∧ b ≠ equals) →
    OwnKey content title key := by
  intro hall
  have hkeys := hall (ascii "[TOPIC]\na 1 b=5") (.lit "TOPIC") (.lit "1") ⟨by decide, by decide⟩
    (by decide) (by decide +kernel)
  obtain ⟨l, hl, -, htrim, -⟩ := hkeys.exists_line (.lit "5") (by decide) (by decide)
  have hsec : sectionLines (.lit "TOPIC") (lines (ascii "[TOPIC]\na 1 b=5")) = [ascii "a 1 b=5"] := by
    decide
  rw [hsec, List.mem_singleton] at hl
  subst hl
  exact absurd htrim (by decide)

/-! ## Edits outside of the entries -/

/-- Edits of a file that leave the entries of the first section of the title
    alone. Deleting is inserting read backwards. -/
inductive Edit (title : CString) : List (List UInt8) → List (List UInt8) → Prop
  /-- Inserting an empty line or a comment, anywhere. -/
  | skipped {l : List UInt8} (pre post : List (List UInt8)) (hl : isSkipped l) :
      Edit title (pre ++ post) (pre ++ l :: post)
  /-- Replacing the lines before the header of the section. -/
  | preamble (pre pre' post : List (List UInt8)) (hpre : header title ∉ pre)
      (hpre' : header title ∉ pre') :
      Edit title (pre ++ header title :: post) (pre' ++ header title :: post)
  /-- Replacing the next header and all that follows by nothing or by another
      header and any lines. -/
  | tail {l : List UInt8} (pre sec post post' : List (List UInt8)) (hpre : header title ∉ pre)
      (hsec : ∀ l ∈ sec, isHeader l = false) (hl : isHeader l)
      (hpost' : ∀ l' ∈ post'.head?, isHeader l') :
      Edit title (pre ++ header title :: (sec ++ l :: post)) (pre ++ header title :: (sec ++ post'))
  /-- Inserting a line without `=` in the section. -/
  | plain {l : List UInt8} (pre sec post : List (List UInt8)) (hpre : header title ∉ pre)
      (hsec : ∀ l ∈ sec, isHeader l = false) (hl : isHeader l = false) (heq : equals ∉ l) :
      Edit title (pre ++ header title :: (sec ++ post)) (pre ++ header title :: (sec ++ l :: post))
  /-- Adding the final newline: the last line is then followed by an empty one. -/
  | newline (ls : List (List UInt8)) : Edit title ls (ls ++ [[]])

variable {ls ls' : List (List UInt8)}

/-- The entries of a section, from its header. -/
theorem entryLines_header {pre post : List (List UInt8)} (hpre : header title ∉ pre) :
    entryLines title (pre ++ header title :: post) =
      (post.takeWhile fun l => !isHeader l).filter isEntry := by
  have hdrop : pre.dropWhile (· != header title) = [] := by
    rw [List.dropWhile_eq_nil_iff]
    intro l hl
    simpa using fun h : l = header title => hpre (h ▸ hl)
  rw [entryLines, sectionLines, List.dropWhile_append, hdrop]
  simp

/-- A line that is not the header may be inserted before it. -/
theorem entryLines_append {pre : List (List UInt8)} (hpre : header title ∉ pre)
    (post : List (List UInt8)) : entryLines title (pre ++ post) = entryLines title post := by
  induction pre with
  | nil => rfl
  | cons l pre ih =>
    obtain ⟨hl, hpre⟩ := not_or.1 (List.mem_cons.not.1 hpre)
    rw [List.cons_append, entryLines, sectionLines,
      List.dropWhile_cons_of_pos (by simpa using fun h => hl h.symm)]
    exact ih hpre

/-- A line that is neither a header nor an entry may be inserted anywhere. -/
theorem entryLines_insert {l : List UInt8} (hh : isHeader l = false) (he : isEntry l = false)
    (pre post : List (List UInt8)) :
    entryLines title (pre ++ l :: post) = entryLines title (pre ++ post) := by
  by_cases hpre : header title ∈ pre
  · -- in or after the section: the line is not one of its entries, and does not end it
    obtain ⟨pre, sec, rfl, hfirst⟩ := List.eq_append_cons_of_mem hpre
    rw [List.append_assoc, List.append_assoc, List.cons_append, List.cons_append,
      entryLines_header hfirst, entryLines_header hfirst]
    clear hpre
    induction sec with
    | nil =>
      rw [List.nil_append, List.nil_append, List.takeWhile_cons_of_pos (by simp [hh]),
        List.filter_cons_of_neg (by simp [he])]
    | cons l' sec ih =>
      simp only [List.cons_append, List.takeWhile_cons]
      split
      · rw [List.filter_cons, List.filter_cons, ih]
      · rfl
  · have hne : header title ∉ [l] := fun h => by
      rw [← List.mem_singleton.1 h, isHeader_header] at hh
      cases hh
    rw [entryLines_append hpre, entryLines_append hpre]
    exact entryLines_append hne post

theorem isHeader_of_isSkipped {l : List UInt8} (hl : isSkipped l) : isHeader l = false := by
  by_contra h
  rw [Bool.not_eq_false] at h
  rw [isSkipped_of_isHeader h] at hl
  cases hl

/-- The section ends at the next header, or with the file. -/
theorem takeWhile_section {sec post : List (List UInt8)} (hsec : ∀ l ∈ sec, isHeader l = false)
    (hpost : ∀ l ∈ post.head?, isHeader l) :
    (sec ++ post).takeWhile (fun l => !isHeader l) = sec := by
  rw [List.takeWhile_append_of_pos fun l hl => by simp [hsec l hl]]
  cases post with
  | nil => simp
  | cons l post => rw [List.takeWhile_cons_of_neg (by simp [hpost l rfl]), List.append_nil]

/-- An edit does not change the entries of the section. -/
theorem Edit.entryLines_eq (h : Edit title ls ls') : entryLines title ls = entryLines title ls' := by
  cases h with
  | skipped pre post hl =>
    exact (entryLines_insert (isHeader_of_isSkipped hl) (by simp [isEntry, hl]) pre post).symm
  | preamble pre pre' post hpre hpre' => rw [entryLines_header hpre, entryLines_header hpre']
  | tail pre sec post post' hpre hsec hl hpost' =>
    rw [entryLines_header hpre, entryLines_header hpre, takeWhile_section hsec hpost',
      takeWhile_section hsec fun l' hl' => by
        rw [← Option.some.inj (Option.mem_def.1 hl')]
        exact hl]
  | plain pre sec post hpre hsec hl heq =>
    have := @entryLines_insert title _ hl (by simp [isEntry, heq]) (pre ++ header title :: sec) post
    simpa using this.symm
  | newline => exact (List.append_nil ls ▸ entryLines_insert rfl rfl ls []).symm

/-- Nor whether all lines are skipped. -/
theorem Edit.all_isSkipped_eq (h : Edit title ls ls') : ls.all isSkipped = ls'.all isSkipped := by
  have hmem : ∀ pre post, (pre ++ header title :: post).all isSkipped = false := fun pre post => by
    rw [List.all_append, List.all_cons, isSkipped_header, Bool.false_and, Bool.and_false]
  cases h with
  | skipped pre post hl => rw [List.all_append, List.all_append, List.all_cons, hl, Bool.true_and]
  | preamble => rw [hmem, hmem]
  | tail => rw [hmem, hmem]
  | plain => rw [hmem, hmem]
  | newline => simp [isSkipped]

/-- What decides on a lookup, for lines that fit `tmpLine`. -/
theorem scanLines_congr (hls : ∀ l ∈ ls, LineOk l) (hls' : ∀ l ∈ ls', LineOk l)
    (hentries : entryLines title ls = entryLines title ls')
    (hskipped : ls.all isSkipped = ls'.all isSkipped) :
    scanLines title key false ls = scanLines title key false ls' := by
  by_cases ht : TitleFits title
  · rw [scanLines_of_fits ht hls, scanLines_of_fits ht hls', hentries]
  · rw [scanLines_of_not_fits ht hls, scanLines_of_not_fits ht hls', hskipped]

/-- Any combination of edits: the files in between need not fit the buffers. -/
theorem edits_eq (h : Relation.EqvGen (Edit title) ls ls') :
    entryLines title ls = entryLines title ls' ∧ ls.all isSkipped = ls'.all isSkipped := by
  induction h with
  | rel _ _ he => exact ⟨he.entryLines_eq, he.all_isSkipped_eq⟩
  | refl => exact ⟨rfl, rfl⟩
  | symm _ _ _ ih => exact ⟨ih.1.symm, ih.2.symm⟩
  | trans _ _ _ _ _ ih₁ ih₂ => exact ⟨ih₁.1.trans ih₂.1, ih₁.2.trans ih₂.2⟩

/-- A lookup only depends on the entries of its section: it gives the same after
    any edits that leave them alone, and in any other file with a section of the
    same entries. -/
theorem getInitKey_congr (h : ContentOk content) (h' : ContentOk content') (title key : CString) :
    (Relation.EqvGen (Edit title) (lines content) (lines content') →
      getInitKey (some (.regular content)) title key =
        getInitKey (some (.regular content')) title key) ∧
    (header title ∈ lines content → header title ∈ lines content' →
      entryLines title (lines content) = entryLines title (lines content') →
      getInitKey (some (.regular content)) title key =
        getInitKey (some (.regular content')) title key) := by
  simp only [getInitKey_regular]
  refine ⟨fun hedits => ?_, fun hsec _ hentries => ?_⟩
  · obtain ⟨hentries, hskipped⟩ := edits_eq hedits
    rw [scanLines_congr h.lineOk h'.lineOk hentries hskipped]
  · have ht : TitleFits title := by
      by_contra ht
      exact header_notMem ht h.lineOk hsec
    rw [scanLines_of_fits ht h.lineOk, scanLines_of_fits ht h'.lineOk, hentries]

/-- Another preamble, a comment and another section. -/
theorem getInitKey_congr_edited :
    getInitKey (some (.regular (ascii "[a]\nx=1\n[b]"))) (.lit "a") (.lit "x") =
      getInitKey (some (.regular (ascii "x=2\n[a]\n#x=3\nx=1\n[c]\nx=4"))) (.lit "a") (.lit "x") := by
  have hlines : lines (ascii "[a]\nx=1\n[b]") =
      [] ++ header (.lit "a") :: ([ascii "x=1"] ++ ascii "[b]" :: []) := by decide
  have hlines' : lines (ascii "x=2\n[a]\n#x=3\nx=1\n[c]\nx=4") =
      [ascii "x=2", header (.lit "a")] ++
        ascii "#x=3" :: ([ascii "x=1"] ++ [ascii "[c]", ascii "x=4"]) := by decide
  refine (getInitKey_congr ⟨by decide, by decide⟩ ⟨by decide, by decide⟩ _ _).1 ?_
  rw [hlines, hlines']
  refine .trans _ _ _ (.rel _ _ (.preamble [] [ascii "x=2"] _ (by decide) (by decide))) ?_
  refine .trans _ _ _ (.rel _ _ (.tail [ascii "x=2"] [ascii "x=1"] _ [ascii "[c]", ascii "x=4"]
    (by decide) (by decide) (by decide) (by decide))) ?_
  exact .rel _ _ (.skipped [ascii "x=2", header (.lit "a")] _ (by decide))

end Cmqtt
