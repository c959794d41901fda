import Mathlib.Tactic

/-!
# Lists of records with a key

Records that are found by a key, in a list: the first with the key is found
(`find`), written to (`update`) or removed (`remove`), and new records are put
at the end. What is found afterwards is said key by key, so that the list is
used as a map: `find_update`, `find_remove` (if no two records have the same
key) and `find_snoc`.
-/

namespace Cmqtt

namespace Keyed

variable {α κ : Type*} [DecidableEq κ] (key : α → κ) (k : κ)

/-- The first record with a key. -/
def find (l : List α) : Option α := l.find? fun a => key a = k

/-- The list with the first record of a key changed. -/
def update (f : α → α) : List α → List α
  | [] => []
  | a :: l => if key a = k then f a :: l else a :: update f l

/-- The list without the first record of a key. -/
def remove (l : List α) : List α := l.eraseP fun a => key a = k

variable {key} {k} {k' : κ} {f : α → α} {l : List α} {a : α}

theorem find_cons : find key k (a :: l) = if key a = k then some a else find key k l := by
  rw [find, List.find?_cons]
  split_ifs with h
  · simp [h]
  · simp [h, find]

theorem key_of_find (h : find key k l = some a) : key a = k := by simpa using List.find?_some h

theorem mem_of_find (h : find key k l = some a) : a ∈ l := List.mem_of_find?_eq_some h

theorem find_of_mem (h : (l.map key).Nodup) (ha : a ∈ l) : find key (key a) l = some a := by
  induction l with
  | nil => cases ha
  | cons b l ih =>
    obtain ⟨hb, hl⟩ := List.nodup_cons.1 h
    rw [find_cons]
    obtain rfl | ha := List.mem_cons.1 ha
    · rw [if_pos rfl]
    · rw [if_neg fun hk => hb (List.mem_map.2 ⟨a, ha, hk.symm⟩), ih hl ha]

theorem find_eq_none : find key k l = none ↔ ∀ a ∈ l, key a ≠ k := by simp [find]

theorem find_update (hf : ∀ a, key a = k → key (f a) = k) :
    find key k' (update key k f l) =
      if k' = k then (find key k' l).map f else find key k' l := by
  induction l with
  | nil => simp [update, find]
  | cons a l ih =>
    rw [update]
    by_cases ha : key a = k
    · rw [if_pos ha, find_cons, find_cons, hf a ha, ha]
      by_cases hk : k = k'
      · rw [if_pos hk, if_pos hk, if_pos hk.symm, Option.map_some]
      · rw [if_neg hk, if_neg hk, if_neg (Ne.symm hk)]
    · rw [if_neg ha, find_cons, find_cons, ih]
      by_cases hk : key a = k'
      · rw [if_pos hk, if_pos hk, if_neg (by rintro rfl; exact ha hk)]
      · rw [if_neg hk, if_neg hk]

theorem map_update (hf : ∀ a, key a = k → key (f a) = k) :
    (update key k f l).map key = l.map key := by
  induction l with
  | nil => rfl
  | cons a l ih =>
    rw [update]
    split_ifs with ha
    · rw [List.map_cons, List.map_cons, hf a ha, ha]
    · rw [List.map_cons, List.map_cons, ih]

theorem nodup_remove (h : (l.map key).Nodup) : ((remove key k l).map key).Nodup :=
  h.sublist (List.eraseP_sublist.map key)

/-- No other record has the key of one that is removed. -/
theorem find_remove (h : (l.map key).Nodup) :
    find key k' (remove key k l) = if k' = k then none else find key k' l := by
  induction l with
  | nil => simp [remove, find]
  | cons a l ih =>
    obtain ⟨ha, hl⟩ := List.nodup_cons.1 h
    by_cases hk : key a = k
    · rw [remove, List.eraseP_cons_of_pos (by simpa using hk), find_cons, hk]
      split_ifs with hk' hk''
      · rw [find_eq_none]
        rintro b hb rfl
        exact ha (List.mem_map.2 ⟨b, hb, hk'.trans hk.symm⟩)
      · exact absurd hk''.symm hk'
      · rfl
    · rw [remove, List.eraseP_cons_of_neg (by simpa using hk), find_cons, find_cons]
      by_cases hk' : key a = k'
      · rw [if_pos hk', if_pos hk', if_neg (by rintro rfl; exact hk hk')]
      · rw [if_neg hk', if_neg hk']
        exact ih hl

/-- A record at the end is found if there was none. -/
theorem find_snoc (h : find key (key a) l = none) :
    find key k (l ++ [a]) = if k = key a then some a else find key k l := by
  rw [find, List.find?_append]
  split_ifs with hk
  · subst hk
    rw [show l.find? (fun b => key b = key a) = none from h]
    simp
  · change (find key k l).or _ = _
    simp [Ne.symm hk]

theorem nodup_snoc (h : find key (key a) l = none) (hl : (l.map key).Nodup) :
    ((l ++ [a]).map key).Nodup := by
  rw [List.map_append, List.map_singleton, List.nodup_append]
  refine ⟨hl, List.nodup_singleton _, ?_⟩
  rintro k hk k' hk' rfl
  obtain ⟨b, hb, rfl⟩ := List.mem_map.1 hk
  exact find_eq_none.1 h b hb (List.mem_singleton.1 hk')

end Keyed

end Cmqtt
