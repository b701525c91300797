/-
# FlexLayout.Fragment -- where boxes end up

A `Frame` is the geometry of one box: the position of its padding edge in its
parent, its content size (`none` while still `auto`) and its used edges.  A
`Fragment` is the geometry of a whole tree of boxes.

A used margin is `none` while it is `auto`; it counts as zero until free space
has been handed out.
-/
import FlexLayout.Box

namespace FlexLayout

set_option autoImplicit false

/-- The geometry of one box. -/
structure Frame where
  /-- Padding edge, from the left of the parent's padding edge. -/
  x : Int := 0
  /-- Padding edge, from the top of the parent's padding edge. -/
  y : Int := 0
  /-- Content width, if known. -/
  width : Option Int := none
  /-- Content height, if known. -/
  height : Option Int := none
  /-- Used margins. -/
  margin : Sides (Option Int) := .all (some 0)
  padding : Sides Int := .all 0
  border : Sides Int := .all 0
deriving DecidableEq, Repr, Inhabited

namespace Frame

/-- Used margin on one side; `auto` counts as zero. -/
def fixedMargin (frame : Frame) (side : Side) : Int := (frame.margin.get side).getD 0

def isAuto (frame : Frame) (side : Side) : Bool := (frame.margin.get side).isNone

/-- Padding and border, left and right. -/
def horizontalInset (frame : Frame) : Int :=
  frame.padding.left + frame.padding.right + frame.border.left + frame.border.right

def verticalInset (frame : Frame) : Int :=
  frame.padding.top + frame.padding.bottom + frame.border.top + frame.border.bottom

/-- Margins, padding and border, left and right. -/
def horizontalSurround (frame : Frame) : Int :=
  frame.fixedMargin .left + frame.fixedMargin .right + frame.horizontalInset

def verticalSurround (frame : Frame) : Int :=
  frame.fixedMargin .top + frame.fixedMargin .bottom + frame.verticalInset

/-- Width of the margin box; an `auto` width counts as zero. -/
def marginBoxWidth (frame : Frame) : Int := frame.width.getD 0 + frame.horizontalSurround

def marginBoxHeight (frame : Frame) : Int := frame.height.getD 0 + frame.verticalSurround

/-- Lower margin edge, measured in the parent as `y` is. -/
def bottomEdge (frame : Frame) : Int :=
  frame.y + frame.padding.top + frame.height.getD 0 + frame.padding.bottom
    + frame.border.bottom + frame.fixedMargin .bottom

end Frame

/-- The geometry of a box and of its children, in the order of the boxes. -/
structure Fragment where
  frame : Frame := {}
  children : List Fragment := []
deriving Repr, Inhabited

namespace Fragment

/-- Height of the content in flow, down to the lowest margin edge of a child. -/
def flowHeight (boxes : List Box) (fragment : Fragment) : Int :=
  let inFlow := (boxes.zip fragment.children).filter fun child => !child.1.outOfFlow
  match (inFlow.map fun child => child.2.frame.bottomEdge).max? with
  | none => 0
  | some bottom => max 0 (bottom - fragment.frame.padding.top)

end Fragment

end FlexLayout
