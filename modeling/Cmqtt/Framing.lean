import Mathlib.Tactic

/-!
# Framing a stream

A stream of symbols carries frames one after the other, without marks between
them: where a frame ends is found in the frame itself. A `Framing` says what
the front of a stream is (`Cut`): a whole frame and the rest, the beginning of
a frame, or nothing that any frame begins with. What it says of a front is
final, more symbols at the end change neither a frame nor a failure.

`Framing.Splits xs as r`: the stream `xs` is the frames `as` and then `r`, the
unfinished beginning of the next one. A stream splits alike however it is cut
into pieces (`Splits.append`, `Splits.of_append`), which is what a reader that is
resumed piece by piece relies on, and every front of it splits
(`Splits.exists_of_append`). The stream that frames are written to splits into them
(`splits_flatMap`).
-/

namespace Cmqtt

/-- What the front of a stream of symbols `β` is, for frames in `α`. -/
inductive Cut (β α : Type*)
  /-- The beginning of a frame. -/
  | more
  /-- The beginning of no frame. -/
  | bad
  /-- A frame, and the rest of the stream. -/
  | frame (a : α) (rest : List β)
  deriving DecidableEq

/-- The same front with more symbols at the end, unless they decide it. -/
def Cut.append {β α : Type*} (ys : List β) : Cut β α → Cut β α
  | .more => .more
  | .bad => .bad
  | .frame a rest => .frame a (rest ++ ys)

/-- A way to find the frames of a stream. -/
structure Framing (β α : Type*) where
  /-- What the front of a stream is. -/
  cut : List β → Cut β α
  /-- More symbols do not change what has been found. -/
  cut_append : ∀ xs ys, cut xs ≠ .more → cut (xs ++ ys) = (cut xs).append ys
  /-- A frame is found without what follows it. -/
  exists_front : ∀ xs a rest, cut xs = .frame a rest →
    ∃ front, xs = front ++ rest ∧ cut front = .frame a []

namespace Framing

variable {β α : Type*} (f : Framing β α)

/-- The stream is some frames and the beginning of another one. -/
inductive Splits : List β → List α → List β → Prop
  | done {r : List β} : f.cut r = .more → Splits r [] r
  | frame {xs ys r : List β} {a : α} {as : List α} :
      f.cut xs = .frame a ys → Splits ys as r → Splits xs (a :: as) r

variable {f} {xs ys r r' : List β} {a : α} {as bs : List α}

theorem cut_append_frame (h : f.cut xs = .frame a r) (ys : List β) :
    f.cut (xs ++ ys) = .frame a (r ++ ys) := by
  rw [f.cut_append xs ys (by rw [h]; nofun), h]
  rfl

/-- A stream that goes on splits as its parts do. -/
theorem Splits.append (h : f.Splits xs as r) (h' : f.Splits (r ++ ys) bs r') :
    f.Splits (xs ++ ys) (as ++ bs) r' := by
  induction h with
  | done _ => exact h'
  | frame hcut _ ih => exact .frame (cut_append_frame hcut ys) (ih h')

/-- What a stream ends with is the beginning of a frame. -/
theorem Splits.cut_rest (h : f.Splits xs as r) : f.cut r = .more := by
  induction h with
  | done h => exact h
  | frame _ _ ih => exact ih

/-- There are no frames in the beginning of one. -/
theorem Splits.eq_of_more (h : f.Splits xs as r) (hmore : f.cut xs = .more) : as = [] ∧ r = xs := by
  cases h with
  | done _ => exact ⟨rfl, rfl⟩
  | frame hcut _ =>
    rw [hmore] at hcut
    cases hcut

/-- A stream whose front splits has the frames of the front first. -/
theorem Splits.of_append (h : f.Splits xs as r) (h' : f.Splits (xs ++ ys) bs r') :
    ∃ cs, bs = as ++ cs ∧ f.Splits (r ++ ys) cs r' := by
  induction h generalizing bs with
  | done _ => exact ⟨bs, rfl, h'⟩
  | frame hcut _ ih =>
    have hcut' := cut_append_frame hcut ys
    cases h' with
    | done hmore =>
      rw [hcut'] at hmore
      cases hmore
    | frame hcut'' h' =>
      rw [hcut'] at hcut''
      obtain ⟨rfl, rfl⟩ := Cut.frame.inj hcut''
      obtain ⟨cs, rfl, hcs⟩ := ih h'
      exact ⟨cs, rfl, hcs⟩

/-- The front of a stream that splits does, too. -/
theorem Splits.exists_of_append (h : f.Splits (xs ++ ys) bs r') : ∃ as r, f.Splits xs as r := by
  generalize hzs : xs ++ ys = zs at h
  induction h generalizing xs with
  | @done r hmore =>
    refine ⟨[], xs, .done ?_⟩
    by_contra hne
    have happ := f.cut_append xs ys hne
    rw [hzs, hmore] at happ
    cases hcut : f.cut xs with
    | more => exact hne hcut
    | bad => rw [hcut] at happ; cases happ
    | frame a rest => rw [hcut] at happ; cases happ
  | @frame _ rest _ a _ hcut' _ ih =>
    by_cases hmore : f.cut xs = .more
    · exact ⟨[], xs, .done hmore⟩
    have happ := f.cut_append xs ys hmore
    rw [hzs, hcut'] at happ
    cases hcut : f.cut xs with
    | more => exact absurd hcut hmore
    | bad => rw [hcut] at happ; cases happ
    | frame a' rest' =>
      rw [hcut, Cut.append] at happ
      obtain ⟨rfl, rfl⟩ := Cut.frame.inj happ
      obtain ⟨as, r, has⟩ := ih rfl
      exact ⟨a :: as, r, .frame hcut has⟩

/-- One more frame at the end. -/
theorem Splits.snoc (h : f.Splits xs as r) (hcut : f.cut (r ++ ys) = .frame a r')
    (hr : f.cut r' = .more) : f.Splits (xs ++ ys) (as ++ [a]) r' :=
  h.append (.frame hcut (.done hr))

/-- A frame that was begun is finished by some of what follows. -/
theorem Splits.read (h : f.Splits xs as r) (hnil : f.cut [] = .more)
    (hcut : f.cut (r ++ ys) = .frame a r') :
    ∃ zs, ys = zs ++ r' ∧ f.Splits (xs ++ zs) (as ++ [a]) [] := by
  obtain ⟨front, happ, hfront⟩ := f.exists_front _ _ _ hcut
  obtain ⟨zs, rfl, hys⟩ | ⟨zs, rfl, -⟩ := List.append_eq_append_iff.1 happ
  · exact ⟨zs, hys, h.snoc hfront hnil⟩
  · -- The frame cannot end within what was only its beginning.
    have hmore := h.cut_rest
    rw [cut_append_frame hfront zs] at hmore
    cases hmore

/-- No more frame at the end. -/
theorem Splits.more (h : f.Splits xs as r) (hcut : f.cut (r ++ ys) = .more) :
    f.Splits (xs ++ ys) as (r ++ ys) := by
  simpa using h.append (.done hcut)

/-- Frames written one after the other, and the beginning of another one, are found again. -/
theorem splits_flatMap {enc : α → List β} (henc : ∀ a ∈ as, ∀ ys, f.cut (enc a ++ ys) = .frame a ys)
    (hr : f.cut r = .more) : f.Splits (as.flatMap enc ++ r) as r := by
  induction as with
  | nil => exact .done hr
  | cons a as ih =>
    rw [List.flatMap_cons, List.append_assoc]
    refine .frame (henc a List.mem_cons_self _) ?_
    exact ih fun b hb => henc b (List.mem_cons_of_mem _ hb)

end Framing

end Cmqtt
