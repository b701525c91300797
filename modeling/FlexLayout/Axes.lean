/-
# FlexLayout.Axes -- main and cross axis

Items run along the main axis, lines stack across it.  A row has a horizontal
main axis, a column a vertical one; a reversed direction starts at the far end.
Coordinates always grow to the right and downward, so besides the main-start
side there is the side where coordinates start (`lowMain`).
-/
import FlexLayout.Fragment

namespace FlexLayout

set_option autoImplicit false

structure Axes where
  /-- The main axis is horizontal. -/
  horizontal : Bool
  /-- Main-start is the right or the bottom side. -/
  reversed : Bool
deriving DecidableEq, Repr, Inhabited

def Direction.axes : Direction → Axes
  | .row => ⟨true, false⟩
  | .rowReverse => ⟨true, true⟩
  | .column => ⟨false, false⟩
  | .columnReverse => ⟨false, true⟩

namespace Axes

/-- Side where main coordinates start. -/
def lowMain (axes : Axes) : Side := if axes.horizontal then .left else .top

def highMain (axes : Axes) : Side := if axes.horizontal then .right else .bottom

/-- Side where the first item sits. -/
def mainStart (axes : Axes) : Side := if axes.reversed then axes.highMain else axes.lowMain

def mainEnd (axes : Axes) : Side := if axes.reversed then axes.lowMain else axes.highMain

def crossStart (axes : Axes) : Side := if axes.horizontal then .top else .left

def crossEnd (axes : Axes) : Side := if axes.horizontal then .bottom else .right

def mainSize? (axes : Axes) (frame : Frame) : Option Int :=
  if axes.horizontal then frame.width else frame.height

/-- Content size along the main axis; zero while `auto`. -/
def mainSize (axes : Axes) (frame : Frame) : Int := (axes.mainSize? frame).getD 0

def crossSize? (axes : Axes) (frame : Frame) : Option Int :=
  if axes.horizontal then frame.height else frame.width

def mainInset (axes : Axes) (frame : Frame) : Int :=
  if axes.horizontal then frame.horizontalInset else frame.verticalInset

def mainSurround (axes : Axes) (frame : Frame) : Int :=
  if axes.horizontal then frame.horizontalSurround else frame.verticalSurround

def crossSurround (axes : Axes) (frame : Frame) : Int :=
  if axes.horizontal then frame.verticalSurround else frame.horizontalSurround

def mainOuter (axes : Axes) (frame : Frame) : Int := axes.mainSize frame + axes.mainSurround frame

def crossOuter (axes : Axes) (frame : Frame) : Int :=
  (axes.crossSize? frame).getD 0 + axes.crossSurround frame

def moveMain (axes : Axes) (frame : Frame) (coordinate : Int) : Frame :=
  if axes.horizontal then { frame with x := coordinate } else { frame with y := coordinate }

def moveCross (axes : Axes) (frame : Frame) (coordinate : Int) : Frame :=
  if axes.horizontal then { frame with y := coordinate } else { frame with x := coordinate }

def autoMainMargins (axes : Axes) (frame : Frame) : Nat :=
  (frame.isAuto axes.mainStart).toNat + (frame.isAuto axes.mainEnd).toNat

end Axes

end FlexLayout
