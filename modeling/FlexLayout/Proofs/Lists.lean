/-
# FlexLayout.Proofs.Lists -- lists that correspond element by element

Layout keeps its state in lists that go through many stages.  What two stages do to
the same list, or one stage to two lists, is `List.Forall₂` of what they do to an
element.

The largest of some sizes is kept by a fold along the list (`le_foldl_max`).
-/
import Mathlib.Data.List.Forall2

namespace FlexLayout

set_option autoImplicit false

variable {α β γ : Type}

/-- Correspondences compose. -/
theorem forall₂_trans {R : α → β → Prop} {S : β → γ → Prop} {T : α → γ → Prop}
    (compose : ∀ a b c, R a b → S b c → T a c) {as : List α} {bs : List β} {cs : List γ}
    (first : List.Forall₂ R as bs) (second : List.Forall₂ S bs cs) : List.Forall₂ T as cs := by
  induction first generalizing cs with
  | nil =>
      cases second
      exact .nil
  | cons related _ ih =>
      cases second with
      | cons step rest => exact .cons (compose _ _ _ related step) (ih rest)

/-- A correspondence may use what holds of every element on its right. -/
theorem forall₂_and_right {R : α → β → Prop} {P : β → Prop} {as : List α} {bs : List β}
    (related : List.Forall₂ R as bs) (holds : ∀ b ∈ bs, P b) :
    List.Forall₂ (fun a b => R a b ∧ P b) as bs :=
  (((List.forall₂_and_left _ _).2 ⟨holds, related.flip⟩).imp fun _ _ both => both.symm).flip

/-- What comes before an element corresponds to what comes before its counterpart. -/
theorem exists_split_of_forall₂ {R : α → β → Prop} {front back : List α} {a : α} {bs : List β}
    (related : List.Forall₂ R (front ++ a :: back) bs) :
    ∃ front' b back', bs = front' ++ b :: back' ∧ List.Forall₂ R front front' ∧ R a b := by
  induction front generalizing bs with
  | nil =>
      cases related with
      | cons first _ => exact ⟨[], _, _, rfl, .nil, first⟩
  | cons c front ih =>
      cases related with
      | cons first later =>
          obtain ⟨front', b, back', rfl, fronts, here⟩ := ih later
          exact ⟨_ :: front', b, back', rfl, .cons first fronts, here⟩

/-- What corresponds to a list comes from it. -/
theorem exists_of_mem_right {R : α → β → Prop} {as : List α} {bs : List β}
    (related : List.Forall₂ R as bs) {b : β} (member : b ∈ bs) : ∃ a ∈ as, R a b := by
  induction related with
  | nil => simp at member
  | @cons a c as bs first _ ih =>
      rcases List.mem_cons.1 member with rfl | later
      · exact ⟨a, List.mem_cons_self, first⟩
      · obtain ⟨d, found, holds⟩ := ih later
        exact ⟨d, List.mem_cons_of_mem a found, holds⟩

/-- The running maximum is no less than where it starts, and than any size on the way. -/
theorem le_foldl_max (size : α → Int) (as : List α) (start : Int) :
    start ≤ as.foldl (fun most a => max most (size a)) start ∧
      ∀ a ∈ as, size a ≤ as.foldl (fun most a => max most (size a)) start := by
  induction as generalizing start with
  | nil => exact ⟨Int.le_refl start, fun _ member => absurd member List.not_mem_nil⟩
  | cons a as ih =>
      rw [List.foldl_cons]
      obtain ⟨least, all⟩ := ih (max start (size a))
      exact ⟨by omega, List.forall_mem_cons.2 ⟨by omega, all⟩⟩

end FlexLayout
