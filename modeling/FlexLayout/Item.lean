/-
# FlexLayout.Item -- flex items

An item is the layout state of one child of a flex container.  Its main sizes --
base, hypothetical, target, minimum and maximum -- are outer sizes, with margins,
padding and border; its cross limits are content sizes.

Items are laid out by ascending `order`, and in document order where that is the
same (`sortByOrder`).
-/
import FlexLayout.Factor

namespace FlexLayout

set_option autoImplicit false

/-- How the flex basis of an item was given. -/
inductive BasisKind where
  | auto
  | content
  | length
deriving DecidableEq, Repr, Inhabited

/-- The bound that an item's target size was last held to. -/
inductive Violation where
  | none
  | min
  | max
deriving DecidableEq, Repr, Inhabited

structure Item where
  /-- Position among the container's children. -/
  child : Nat := 0
  /-- Position among the container's items, in document order. -/
  index : Nat := 0
  order : Int := 0
  basis : BasisKind := .auto
  /-- The basis in pixels; `none` when the content decides. -/
  basisPixels : Option Int := none
  grow : Factor := 0
  shrink : Factor := 0
  /-- Specified minimum content size; `none` is automatic. -/
  minSpecified : Option Int := none
  minMain : Int := 0
  maxMain : Option Int := none
  minCross : Int := 0
  maxCross : Option Int := none
  /-- Flex base size. -/
  base : Int := 0
  /-- Size that flexing settles on. -/
  target : Int := 0
  /-- Base size within the item's limits. -/
  hypothetical : Int := 0
  /-- The line that the item is on. -/
  line : Nat := 0
  /-- The target is final. -/
  frozen : Bool := false
  violation : Violation := .none
  outOfFlow : Bool := false
deriving DecidableEq, Repr, Inhabited

namespace Item

def factor (item : Item) (growing : Bool) : Factor := if growing then item.grow else item.shrink

/-- Hold an outer main size within the item's limits; the minimum wins. -/
def hold (item : Item) (size : Int) : Int :=
  let capped := match item.maxMain with
    | none => size
    | some limit => min size limit
  max capped item.minMain

theorem hold_hold_main (item : Item) (size : Int) :
    item.hold (item.hold size) = item.hold size := by
  unfold hold; cases item.maxMain <;> dsimp only <;> omega

/-- An item comes no later than another: by `order`, then in document order. -/
def precedes (a b : Item) : Bool :=
  a.order < b.order || (a.order == b.order && a.index ≤ b.index)

theorem precedes_trans (a b c : Item) (ab : a.precedes b) (bc : b.precedes c) : a.precedes c := by
  simp only [precedes, Bool.or_eq_true, Bool.and_eq_true, decide_eq_true_eq, beq_iff_eq] at *
  omega

theorem precedes_total (a b : Item) : (a.precedes b || b.precedes a) = true := by
  simp only [precedes, Bool.or_eq_true, Bool.and_eq_true, decide_eq_true_eq, beq_iff_eq]
  omega

def sortByOrder (items : List Item) : List Item := items.mergeSort precedes

theorem sortByOrder_perm (items : List Item) : (sortByOrder items).Perm items :=
  List.mergeSort_perm items precedes

theorem sortByOrder_sorted (items : List Item) :
    (sortByOrder items).Pairwise fun a b => a.precedes b :=
  List.pairwise_mergeSort precedes_trans precedes_total items

end Item

end FlexLayout
