/-
# FlexLayout.Container -- a flex container before its items are laid out

`Container.prepare` resolves the container's own edges, sizes and limits, and
from them the space that its items can use.  A width or height present on entry
was imposed by the parent and is kept; an `auto` width fills the available width.
A positive minimum height makes an `auto` height definite for the items.

`Container.finalFrame` gives an `auto` height the size of the content.
-/
import FlexLayout.Axes
import FlexLayout.Sizing

namespace FlexLayout

set_option autoImplicit false

/-- A flex container and the space inside it. -/
structure Container where
  style : Style
  /-- The container's own geometry. -/
  frame : Frame
  limits : Limits
  /-- Content width: what percentages of the items refer to. -/
  contentWidth : Int
  /-- Space along the main axis, if definite. -/
  mainSpace : Option Int
  /-- Space across the main axis, if definite. -/
  crossSpace : Option Int
  /-- Gap between neighbours on a line. -/
  mainGap : Int
  /-- Gap between lines. -/
  crossGap : Int

/-- Pixels of a gap.  A percentage without reference is no gap, and no gap is
negative. -/
def Style.gapPixels (style : Style) (resolve : Resolver) (gap : Option Length)
    (reference : Option Int) : Int :=
  match gap with
  | none => 0
  | some length => max 0 ((resolve style length reference).getD 0)

def Style.gaps (style : Style) (resolve : Resolver) (frame : Frame) : Int × Int :=
  let column := style.gapPixels resolve style.columnGap frame.width
  let row := style.gapPixels resolve style.rowGap frame.height
  if style.direction.axes.horizontal then (column, row) else (row, column)

namespace Container

def axes (container : Container) : Axes := container.style.direction.axes

/-- Geometry of a container of a style with edges and sizes resolved against the
available width; imposed sizes are kept. -/
def resolveFrame (resolve : Resolver) (style : Style) (frame : Frame) (available : Int) : Frame :=
  let sized := frame.withSizes resolve style available
  let limits := sized.limits resolve style available
  let fill := available - sized.horizontalSurround
  { sized with
    width := some (frame.width.getD (max 0 (limits.holdWidth (sized.width.getD fill))))
    height := match frame.height with
      | some imposed => some imposed
      | none => sized.height.map limits.holdHeight }

/-- Resolve a container's own geometry and the space for its items. -/
def prepare (resolve : Resolver) (style : Style) (frame : Frame) (available : Int) : Container :=
  let own := resolveFrame resolve style frame available
  let limits := own.limits resolve style available
  let contentWidth := own.width.getD 0
  let definiteHeight := own.height <|> limits.minHeight.filter (0 < ·)
  let horizontal := style.direction.axes.horizontal
  let gaps := style.gaps resolve own
  { style := style
    frame := own
    limits := limits
    contentWidth := contentWidth
    mainSpace := if horizontal then some contentWidth else definiteHeight
    crossSpace := if horizontal then definiteHeight else some contentWidth
    mainGap := gaps.1
    crossGap := gaps.2 }

def finalFrame (container : Container) (mainSize crossSize : Int) : Frame :=
  let content := if container.axes.horizontal then crossSize else mainSize
  let height := container.frame.height.getD content
  { container.frame with height := some (max 0 (container.limits.holdHeight height)) }

end Container

end FlexLayout
