/-
# FlexLayout.Proofs.Children.Below -- old geometry that layout does not read

`Box.Below` is what may differ below a box that is about to be laid out: a flex
container gives its items new geometry, so theirs may be anything, and below them again
whatever layout does not read.  A box of another kind is handed over as it is, so below
it nothing may differ, and neither may the boxes that are no flex items.
-/
import FlexLayout.Fragment

namespace FlexLayout

set_option autoImplicit false

mutual

/-- What may differ below a box that is about to be laid out. -/
def Box.Below : Box → List Fragment → List Fragment → Prop
  | ⟨kind, _, _, _, _, boxes⟩, children, others =>
      if kind.isFlex then Stale boxes children others else others = children

/-- The geometry of the children of a flex container, in two versions: flex items may
differ as layout does not look at it, and other children may not differ. -/
def Stale : List Box → List Fragment → List Fragment → Prop
  | [], _, _ => True
  | _ :: _, [], [] => True
  | box :: boxes, fragment :: fragments, other :: others =>
      (if box.participates then box.Below fragment.children other.children
        else other = fragment) ∧ Stale boxes fragments others
  | _ :: _, [], _ :: _ => False
  | _ :: _, _ :: _, [] => False

end

mutual

theorem Box.below_refl (box : Box) (children : List Fragment) : box.Below children children := by
  obtain ⟨kind, style, generated, least, most, boxes⟩ := box
  rw [Box.Below]
  split
  · exact stale_refl boxes children
  · rfl

theorem stale_refl (boxes : List Box) (fragments : List Fragment) :
    Stale boxes fragments fragments := by
  match boxes, fragments with
  | [], _ => exact trivial
  | _ :: _, [] => exact trivial
  | box :: boxes, fragment :: fragments =>
      refine ⟨?_, stale_refl boxes fragments⟩
      split
      · exact box.below_refl fragment.children
      · rfl

end

end FlexLayout
