/-
# FlexLayout.Sizing -- used edges, sizes and limits from style

Horizontal percentages, and vertical margins and padding too, refer to the width
that is available to the box.  Percentage heights have no reference here and stay
`auto`.  Sizes and limits are content sizes, whatever `box-sizing` says.
-/
import FlexLayout.Fragment
import FlexLayout.Units

namespace FlexLayout

set_option autoImplicit false

/-- Bounds on a content size.  A missing minimum is automatic, a missing maximum
is no limit. -/
structure Limits where
  minWidth : Option Int := none
  maxWidth : Option Int := none
  minHeight : Option Int := none
  maxHeight : Option Int := none
deriving DecidableEq, Repr, Inhabited

namespace Limits

/-- Hold a size between two bounds; the lower bound wins over the upper. -/
def hold (lower upper : Option Int) (size : Int) : Int :=
  let capped := match upper with
    | none => size
    | some limit => min size limit
  match lower with
  | none => capped
  | some limit => max capped limit

def holdWidth (limits : Limits) (width : Int) : Int := hold limits.minWidth limits.maxWidth width

def holdHeight (limits : Limits) (height : Int) : Int :=
  hold limits.minHeight limits.maxHeight height

theorem hold_hold (lower upper : Option Int) (size : Int) :
    hold lower upper (hold lower upper size) = hold lower upper size := by
  cases lower <;> cases upper <;> simp only [hold] <;> omega

end Limits

namespace Style

/-- Content size of a specified size, given the padding and border along its
axis. -/
def contentSize (style : Style) (specified inset : Int) : Int :=
  match style.boxSizing with
  | .contentBox => max 0 specified
  | .borderBox => max 0 (specified - inset)

def contentSize? (style : Style) (resolve : Resolver) (size : Option Length)
    (reference : Option Int) (inset : Int) : Option Int :=
  size.bind fun length => (resolve style length reference).map fun px => style.contentSize px inset

theorem contentSize_nonneg (style : Style) (specified inset : Int) :
    0 ≤ style.contentSize specified inset := by
  unfold contentSize; split <;> omega

theorem nonneg_of_contentSize? {style : Style} {resolve : Resolver} {size : Option Length}
    {reference : Option Int} {inset pixels : Int}
    (found : style.contentSize? resolve size reference inset = some pixels) : 0 ≤ pixels := by
  simp only [contentSize?, Option.bind_eq_some_iff, Option.map_eq_some_iff] at found
  obtain ⟨_, -, specified, -, rfl⟩ := found
  exact style.contentSize_nonneg specified inset

end Style

namespace Frame

def withEdges (resolve : Resolver) (style : Style) (available : Int) (frame : Frame) : Frame :=
  let pixels length := (resolve style length (some available)).getD 0
  { frame with
    margin := style.margin.map fun margin => margin.map pixels
    padding := style.padding.map fun padding => max 0 (pixels padding)
    border := style.borderWidth.map fun width => max 0 (Binary32.toPixels width) }

/-- Used edges and specified sizes of a style. -/
def withSizes (resolve : Resolver) (style : Style) (available : Int) (frame : Frame) : Frame :=
  let edged := frame.withEdges resolve style available
  { edged with
    width := style.contentSize? resolve style.width (some available) edged.horizontalInset
    height := style.contentSize? resolve style.height none edged.verticalInset }

def limits (resolve : Resolver) (style : Style) (available : Int) (frame : Frame) : Limits where
  minWidth := style.contentSize? resolve style.minWidth (some available) frame.horizontalInset
  maxWidth := style.contentSize? resolve style.maxWidth (some available) frame.horizontalInset
  minHeight := style.contentSize? resolve style.minHeight none frame.verticalInset
  maxHeight := style.contentSize? resolve style.maxHeight none frame.verticalInset

end Frame

end FlexLayout
