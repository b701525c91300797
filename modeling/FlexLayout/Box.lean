/-
# FlexLayout.Box -- what is laid out

A `Box` is the fixed part of the layout tree: kind, style, intrinsic widths and
children.  Layout never changes it.  What layout computes -- positions, sizes and
used edges -- is a `FlexLayout.Fragment` of the same shape.
-/
import FlexLayout.Style

namespace FlexLayout

set_option autoImplicit false

/-- The formatting context that a box establishes for its children. -/
inductive BoxKind where
  | block
  | table
  | flex
  | grid
deriving DecidableEq, Repr, Inhabited

/-- The kind as it is spelled in messages. -/
def BoxKind.title : BoxKind → String
  | .block => "Block"
  | .table => "Table"
  | .flex => "Flex"
  | .grid => "Grid"

/-- Only flex boxes establish a flex formatting context. -/
def BoxKind.isFlex (kind : BoxKind) : Bool := kind == .flex

structure Box where
  kind : BoxKind := .block
  style : Style := {}
  /-- Anonymous boxes made for generated content are no flex items. -/
  generated : Bool := false
  /-- Outer width below which content overflows. -/
  minContentWidth : Int := 0
  /-- Outer width that content takes without wrapping. -/
  maxContentWidth : Int := 0
  children : List Box := []
deriving Repr, Inhabited

namespace Box

def outOfFlow (box : Box) : Bool := box.style.outOfFlow

/-- The box takes part in flex layout.  Boxes out of flow do, without taking
space; generated boxes do not. -/
def participates (box : Box) : Bool := !box.generated

end Box

def countFlexItems (boxes : List Box) : Nat := boxes.countP Box.participates

end FlexLayout
