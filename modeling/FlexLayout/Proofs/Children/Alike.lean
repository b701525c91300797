/-
# FlexLayout.Proofs.Children.Alike -- geometry that layout does not tell apart

What layout computes for a box depends on little of the geometry that is there
already.  `Frame.Agrees` is equality except for the coordinates, which nothing reads
before they are set.  What may differ below a box is up to the coupling.

`Routine` says of two layout routines that they do the same from such geometry, and
`Kid.Pair` relates two children whose routines do.  Their boxes are the same, except that
they may differ in `order`, which is read when the items of a container are sorted and
nowhere else, as long as lengths resolve without it (`Resolver.OrderBlind`).
-/
import FlexLayout.Proofs.Run.Logic
import FlexLayout.Slack

namespace FlexLayout

set_option autoImplicit false

/-- The same geometry, except perhaps for the coordinates: `x` agrees if `px` holds,
`y` if `py` does. -/
structure Frame.Agrees (px py : Prop) (frame other : Frame) : Prop where
  width : other.width = frame.width
  height : other.height = frame.height
  margin : other.margin = frame.margin
  padding : other.padding = frame.padding
  border : other.border = frame.border
  x : px → other.x = frame.x
  y : py → other.y = frame.y

namespace Frame.Agrees

variable {px py : Prop} {frame other : Frame}

theorem refl (px py : Prop) (frame : Frame) : frame.Agrees px py frame :=
  ⟨rfl, rfl, rfl, rfl, rfl, fun _ => rfl, fun _ => rfl⟩

theorem of_eq (px py : Prop) (same : other = frame) : frame.Agrees px py other :=
  same ▸ refl px py frame

theorem moved (agrees : frame.Agrees px py other) :
    other = { frame with x := other.x, y := other.y } := by
  obtain ⟨width, height, margin, padding, border, -, -⟩ := agrees
  cases other
  simp_all

theorem eq (agrees : frame.Agrees True True other) : other = frame := by
  rw [agrees.moved, agrees.x trivial, agrees.y trivial]

theorem same {β : Type} (agrees : frame.Agrees px py other) (F : Frame → β)
    (unplaced : ∀ (frame : Frame) (x y : Int), F { frame with x := x, y := y } = F frame) :
    F other = F frame := by
  rw [agrees.moved]
  exact unplaced frame _ _

theorem mono {qx qy : Prop} (agrees : frame.Agrees px py other) (x : qx → px) (y : qy → py) :
    frame.Agrees qx qy other :=
  { agrees with x := fun holds => agrees.x (x holds), y := fun holds => agrees.y (y holds) }

theorem resized (agrees : frame.Agrees px py other) (width height : Option Int) :
    ({ frame with width := width, height := height } : Frame).Agrees px py
      { other with width := width, height := height } :=
  { agrees with width := rfl, height := rfl }

/-- Geometry that agrees for whatever reason agrees on sizes and edges that are
resolved anew. -/
theorem withSizes (frame other : Frame) (resolve : Resolver) (style : Style) (available : Int) :
    (frame.withSizes resolve style available).Agrees (other.x = frame.x) (other.y = frame.y)
      (other.withSizes resolve style available) :=
  ⟨rfl, rfl, rfl, rfl, rfl, id, id⟩

end Frame.Agrees

/-- Geometry that agrees down to the last descendant, except for the coordinates of
the box itself. -/
structure Fragment.Agrees (px py : Prop) (fragment other : Fragment) : Prop where
  frame : fragment.frame.Agrees px py other.frame
  children : other.children = fragment.children

namespace Fragment.Agrees

variable {px py : Prop} {fragment other : Fragment}

theorem eq (agrees : fragment.Agrees True True other) : other = fragment := by
  have frame := agrees.frame.eq
  have children := agrees.children
  cases fragment
  cases other
  simp_all

theorem flowHeight (agrees : fragment.Agrees px py other) (boxes : List Box) :
    other.flowHeight boxes = fragment.flowHeight boxes := by
  simp only [Fragment.flowHeight]
  rw [agrees.children, agrees.frame.padding]

theorem spread (agrees : fragment.Agrees px py other) (resolve : Resolver) (box : Box) :
    (Slack.spread resolve box fragment).Agrees px py (Slack.spread resolve box other) := by
  obtain ⟨kind, style, generated, least, most, boxes⟩ := box
  have gaps : style.gaps resolve other.frame = style.gaps resolve fragment.frame := by
    simp only [Style.gaps]
    rw [agrees.frame.width, agrees.frame.height]
  have here : Slack.spreadHere resolve style boxes other =
      Slack.spreadHere resolve style boxes fragment := by
    simp only [Slack.spreadHere, Slack.settle, Slack.restack]
    rw [agrees.frame.height, agrees.children, agrees.frame.padding, gaps]
  simp only [Slack.spread]
  split
  · exact ⟨agrees.frame, by rw [here]⟩
  · exact agrees

end Fragment.Agrees

/-- Two routines of a box do the same, from geometry that they do not tell apart. -/
def Routine (Γ : Coupling) (box : Box) (run run' : Fragment → Int → Run Failure Fragment) : Prop :=
  ∀ (px py : Prop) (fragment other : Fragment) (width : Int),
    fragment.frame.Agrees px py other.frame → Γ.Below box fragment.children other.children →
    Γ.Holds (Fragment.Agrees px py) (run fragment width) (run' other width)

/-! ## Boxes up to their `order` -/

def Style.ordered (style : Style) (order : Int) : Style := { style with order := order }

def Box.ordered (box : Box) (order : Int) : Box := { box with style := box.style.ordered order }

theorem Box.ordered_self (box : Box) : box.ordered box.style.order = box := by
  cases box
  rfl

/-- The pixels of a length do not depend on `order`. -/
class Resolver.OrderBlind (resolve : Resolver) : Prop where
  blind : ∀ (style : Style) (order : Int), resolve (style.ordered order) = resolve style

namespace Style

variable (resolve : Resolver) [resolve.OrderBlind] (style : Style) (order : Int)

theorem resolve_ordered : resolve (style.ordered order) = resolve style :=
  Resolver.OrderBlind.blind style order

theorem withSizes_ordered (frame : Frame) (available : Int) :
    frame.withSizes resolve (style.ordered order) available =
      frame.withSizes resolve style available := by
  simp only [Frame.withSizes, Frame.withEdges, contentSize?]
  rw [resolve_ordered resolve]
  rfl

theorem limits_ordered (frame : Frame) (available : Int) :
    frame.limits resolve (style.ordered order) available = frame.limits resolve style available := by
  simp only [Frame.limits, contentSize?]
  rw [resolve_ordered resolve]
  rfl

theorem gaps_ordered (frame : Frame) :
    (style.ordered order).gaps resolve frame = style.gaps resolve frame := by
  simp only [gaps, gapPixels]
  rw [resolve_ordered resolve]
  rfl

end Style

/-- Late height is handed out whatever the `order` of the container. -/
theorem Slack.spread_ordered (resolve : Resolver) [resolve.OrderBlind] (box : Box) (order : Int)
    (fragment : Fragment) :
    Slack.spread resolve (box.ordered order) fragment = Slack.spread resolve box fragment := by
  obtain ⟨kind, style, generated, least, most, boxes⟩ := box
  have here : Slack.spreadHere resolve (style.ordered order) boxes fragment =
      Slack.spreadHere resolve style boxes fragment := by
    simp only [Slack.spreadHere, Slack.settle]
    rw [Style.gaps_ordered]
    rfl
  show Slack.spread resolve ⟨kind, style.ordered order, generated, least, most, boxes⟩ fragment = _
  simp only [Slack.spread]
  rw [here]
  rfl

/-- Two children with the same box up to its `order`, routines that do the same, and
related geometry. -/
structure Kid.Pair (Γ : Coupling) (R : Box → Fragment → Fragment → Prop) (kid kid' : Kid) : Prop where
  box : ∃ order, kid'.box = kid.box.ordered order
  routine : Routine Γ kid.box kid.layOut kid'.layOut
  related : R kid.box kid.fragment kid'.fragment

namespace Kid.Pair

variable {Γ : Coupling} {R S : Box → Fragment → Fragment → Prop} {kid kid' : Kid}

theorem participates (pair : kid.Pair Γ R kid') :
    kid'.box.participates = kid.box.participates := by
  obtain ⟨order, box⟩ := pair.box
  rw [box]
  rfl

theorem children (pair : kid.Pair Γ R kid') : kid'.box.children = kid.box.children := by
  obtain ⟨order, box⟩ := pair.box
  rw [box]
  rfl

theorem spread (pair : kid.Pair Γ R kid') (resolve : Resolver) [resolve.OrderBlind]
    (fragment : Fragment) : Slack.spread resolve kid'.box fragment =
      Slack.spread resolve kid.box fragment := by
  obtain ⟨order, box⟩ := pair.box
  rw [box, Slack.spread_ordered]

theorem withFragment (pair : kid.Pair Γ R kid') {fragment other : Fragment}
    (related : S kid.box fragment other) :
    (kid.withFragment fragment).Pair Γ S (kid'.withFragment other) :=
  { box := pair.box, routine := pair.routine, related := related }

theorem layOut (pair : kid.Pair Γ R kid') {px py : Prop} {frame other : Frame}
    (agrees : frame.Agrees px py other)
    (below : Γ.Below kid.box kid.fragment.children kid'.fragment.children) (width : Int) :
    Γ.Holds (Fragment.Agrees px py) (kid.layOut (kid.withFrame frame).fragment width)
      (kid'.layOut (kid'.withFrame other).fragment width) :=
  pair.routine px py _ _ width agrees below

end Kid.Pair

end FlexLayout
