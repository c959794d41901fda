import Mathlib.Data.List.Nodup

/-!
# Ledgers

Things are asked for, once each, and are held from then on, unless they get
lost. A change of the two (`Change`) adds something to both, misses it, drops
some of what is held, or only rearranges that. The order of what is held does not
matter.

What is lost stays lost, as nothing is asked for twice: all that was asked for
is held if and only if no change so far was a loss (`Accounted.subset_iff`).
-/

namespace Cmqtt

variable {α : Type*} {asked held asked' held' : List α} {b : Bool}

/-- A change of what is asked for and what is held: nothing is lost, or (with
    `false`) something is. -/
inductive Change (asked held : List α) : List α → List α → Bool → Prop
  | same {held' : List α} (h : held'.Perm held) : Change asked held asked held' true
  | added {held' : List α} (x : α) (hx : x ∉ asked) (h : held'.Perm (held ++ [x])) :
      Change asked held (asked ++ [x]) held' true
  | missed (x : α) (hx : x ∉ asked) : Change asked held (asked ++ [x]) held false
  | dropped {gone held' : List α} (h : held.Perm (gone ++ held')) (hgone : gone ≠ []) :
      Change asked held asked held' false

/-- What is held was asked for once. -/
structure Accounted (asked held : List α) : Prop where
  nodup : held.Nodup
  subset : held ⊆ asked

theorem Accounted.change (h : Accounted asked held) (hc : Change asked held asked' held' b) :
    Accounted asked' held' := by
  cases hc with
  | same hperm => exact ⟨hperm.nodup_iff.2 h.nodup, List.Subset.trans hperm.subset h.subset⟩
  | added x hx hperm =>
    refine ⟨hperm.nodup_iff.2 ?_, List.Subset.trans hperm.subset (List.append_subset.2
      ⟨List.Subset.trans h.subset (List.subset_append_left _ _), List.subset_append_right _ _⟩)⟩
    rw [List.nodup_append]
    refine ⟨h.nodup, List.nodup_singleton x, fun y hy z hz => ?_⟩
    rw [List.mem_singleton.1 hz]
    exact fun hyx => hx (hyx ▸ h.subset hy)
  | missed x _ => exact ⟨h.nodup, List.Subset.trans h.subset (List.subset_append_left _ _)⟩
  | dropped hheld _ =>
    refine ⟨(hheld.nodup_iff.1 h.nodup).of_append_right, ?_⟩
    exact List.Subset.trans (List.Subset.trans (List.subset_append_right _ _) hheld.symm.subset)
      h.subset

/-- All that was asked for is held, if it was before and nothing is lost. -/
theorem Accounted.subset_iff (h : Accounted asked held) (hc : Change asked held asked' held' b) :
    asked' ⊆ held' ↔ asked ⊆ held ∧ b = true := by
  cases hc with
  | same hperm =>
    exact ⟨fun hsub => ⟨List.Subset.trans hsub hperm.subset, rfl⟩,
      fun hsub => List.Subset.trans hsub.1 hperm.symm.subset⟩
  | added x hx hperm =>
    refine ⟨fun hsub => ⟨fun y hy => ?_, rfl⟩, fun hsub => List.Subset.trans
      (List.append_subset.2 ⟨List.Subset.trans hsub.1 (List.subset_append_left _ _),
        List.subset_append_right _ _⟩) hperm.symm.subset⟩
    rcases List.mem_append.1 (hperm.subset (hsub (List.mem_append_left _ hy))) with hy' | hy'
    · exact hy'
    · exact absurd (List.mem_singleton.1 hy' ▸ hy) hx
  | missed x hx =>
    refine ⟨fun hsub => ?_, fun hsub => nomatch hsub.2⟩
    exact absurd (h.subset (hsub (List.mem_append_right _ (List.mem_singleton_self x)))) hx
  | dropped hheld hgone =>
    refine ⟨fun hsub => ?_, fun hsub => nomatch hsub.2⟩
    obtain ⟨x, hx⟩ := List.exists_mem_of_ne_nil _ hgone
    -- what is gone was held once, so it is not held any more
    have hx' := hsub (h.subset (hheld.symm.subset (List.mem_append_left _ hx)))
    exact absurd rfl ((List.nodup_append.1 (hheld.nodup_iff.1 h.nodup)).2.2 x hx x hx')

/-- All that was asked for is held if nothing but the order tells the two apart. -/
theorem Accounted.perm_iff (h : Accounted asked held) (hasked : asked.Nodup) :
    held.Perm asked ↔ asked ⊆ held := by
  refine ⟨fun hperm => hperm.symm.subset, fun hsub => ?_⟩
  exact (List.perm_ext_iff_of_nodup h.nodup hasked).2 fun x => ⟨fun hx => h.subset hx,
    fun hx => hsub hx⟩

end Cmqtt
