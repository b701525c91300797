/-
# FlexLayout.Line.Alignment -- lines and items across the main axis

Definite cross space that the lines leave free is shared between them, one spare
pixel each to the earliest.  Lines stack from the cross-start edge, or from the far
edge under `wrap-reverse`, which also swaps the start and end of every alignment.

An item that stretches is laid out again at the size of its line, within its own
limits, and a stretched column then hands out the height it gained.  Otherwise
`auto` cross margins take the free space of the line, or the alignment decides.
-/
import FlexLayout.Line.Placement
import FlexLayout.Slack

namespace FlexLayout

set_option autoImplicit false

namespace Line

/-- Grow lines by equal shares of free space and stack them; the first `remainder`
lines get one more pixel. -/
def stackLines (reversed : Bool) (gap share : Int) (pos remainder : Int) :
    List FilledLine → List FilledLine
  | [] => []
  | filled :: rest =>
      let extra := share + Pixel.bonus remainder
      let cross := filled.line.cross + extra
      let low := if reversed then pos - cross else pos
      let next := if reversed then low - gap else low + cross + gap
      { filled with line := { filled.line with cross := cross, offset := low } } ::
        stackLines reversed gap share next (remainder - Pixel.bonus remainder) rest

def spreadLines (container : Container) (crossSize : Int) (lines : List FilledLine) :
    List FilledLine :=
  let reversed := container.style.wrap == .wrapReverse
  let free := match container.crossSpace with
    | none => 0
    | some available => max 0 (available - crossSize)
  let count := max 1 (lines.length : Int)
  stackLines reversed container.crossGap (free.tdiv count)
    (if reversed then container.crossSpace.getD crossSize else 0) (free.tmod count) lines

end Line

namespace Container

/-- The alignment of a child within its line; `wrap-reverse` swaps start and end. -/
def alignmentOf (container : Container) (box : Box) : Alignment :=
  let alignment := Alignment.resolve box.style.alignSelf container.style.alignItems
  match alignment, container.style.wrap with
  | .flexStart, .wrapReverse => .flexEnd
  | .flexEnd, .wrapReverse => .flexStart
  | other, _ => other

def stretches (container : Container) (item : Item) (kid : Kid) : Bool :=
  let axes := container.axes
  let specified := if axes.horizontal then kid.box.style.height else kid.box.style.width
  container.alignmentOf kid.box == .stretch && specified.isNone && !item.outOfFlow
    && !kid.frame.isAuto axes.crossStart && !kid.frame.isAuto axes.crossEnd

/-- Cross size of a stretched child: that of its line, within the item's limits. -/
def stretchedSize (axes : Axes) (item : Item) (frame : Frame) (lineCross : Int) : Int :=
  let room := lineCross - axes.crossSurround frame
  let capped := match item.maxCross with
    | none => room
    | some limit => min room limit
  max 0 (max capped item.minCross)

/-- Stretch a child to its line and lay it out again, unless it has that size
already.  A column hands out the height it gained. -/
def stretch (resolve : Resolver) (axes : Axes) (item : Item) (lineCross : Int) (kid : Kid) :
    Run Failure Kid := do
  let size := stretchedSize axes item kid.frame lineCross
  if axes.crossSize? kid.frame = some size then
    return kid
  else
    let frame :=
      if axes.horizontal then { kid.frame with height := some size }
      else { kid.frame with width := some size }
    let fragment ← kid.layOut (kid.withFrame frame).fragment (frame.width.getD 0)
    return kid.withFragment (Slack.spread resolve kid.box fragment)

/-- Offset of a child's margin box within its line.  `startAuto` and `endAuto` tell
which cross margins are `auto`. -/
def crossOffset (reversed startAuto endAuto : Bool) (alignment : Alignment) (free : Int) : Int :=
  match startAuto, endAuto with
  | true, true => (max 0 free).tdiv 2
  | true, false => max 0 free
  | false, true => 0
  | false, false =>
      match alignment with
      | .flexEnd => free
      | .center | .baseline => free.tdiv 2
      | .stretch => if reversed then free else 0
      | .flexStart => 0

def alignKid (resolve : Resolver) (container : Container) (line : Line) (item : Item) (kid : Kid) :
    Run Failure Kid := do
  let axes := container.axes
  let startAuto := kid.frame.isAuto axes.crossStart
  let endAuto := kid.frame.isAuto axes.crossEnd
  let kid ←
    if container.stretches item kid then stretch resolve axes item line.cross kid else pure kid
  let offset :=
    crossOffset (container.style.wrap == .wrapReverse) startAuto endAuto
      (container.alignmentOf kid.box) (line.cross - axes.crossOuter kid.frame)
  let place := container.frame.padding.get axes.crossStart + line.offset + offset
    + kid.frame.fixedMargin axes.crossStart + kid.frame.border.get axes.crossStart
  return kid.withFrame (axes.moveCross kid.frame place)

def alignAll (resolve : Resolver) (container : Container) :
    List (Line × Item) → List Kid → Run Failure (List Kid)
  | [], kids => return kids
  | (line, item) :: rest, kids => do
      match kids[item.child]? with
      | none => alignAll resolve container rest kids
      | some kid =>
          let kid ← alignKid resolve container line item kid
          alignAll resolve container rest (kids.set item.child kid)

def align (resolve : Resolver) (container : Container) (crossSize : Int) (lines : List FilledLine)
    (kids : List Kid) : Run Failure (List Kid) :=
  let spread := Line.spreadLines container crossSize lines
  alignAll resolve container
    (spread.flatMap fun filled => filled.items.map fun item => (filled.line, item)) kids

end Container

end FlexLayout
