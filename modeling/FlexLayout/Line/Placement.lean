/-
# FlexLayout.Line.Placement -- a line along its main axis

Once a line is flexed, every item gets its final main size and is laid out with it
(`giveMainSize`); a column item whose height did not change is left as it is.
Positions are then a walk over the sizes (`MainWalk`): free space goes to `auto`
margins, or is justified when there are none, and a reversed line is walked
backward from its far end.

Items out of flow are sized and placed where the walk stands, and the walk does
not move.
-/
import FlexLayout.Flexing
import FlexLayout.Item.Measure
import FlexLayout.Spacing

namespace FlexLayout

set_option autoImplicit false

/-- How the items of one line are placed along the main axis. -/
structure MainTrack where
  /-- Where the walk begins. -/
  start : Int
  /-- The walk runs toward smaller coordinates. -/
  reversed : Bool
  gap : Int
  /-- Pixels for each `auto` margin. -/
  autoShare : Int
  /-- How many of the first `auto` margins get one more pixel. -/
  autoRemainder : Int
  spacing : Spacing
  /-- Number of items that take space. -/
  inFlow : Nat
deriving DecidableEq, Repr, Inhabited

/-- A walk along a line. -/
structure MainWalk where
  pos : Int
  /-- One-pixel shares left for `auto` margins. -/
  remainder : Int
  /-- Items that took space so far. -/
  placed : Nat := 0
deriving DecidableEq, Repr, Inhabited

namespace MainTrack

def ofLine (container : Container) (line : Line) : MainTrack :=
  let axes := container.axes
  let space := container.mainSpace.getD line.used
  let free := max 0 (space - line.used)
  let autos := (line.autoMargins : Int)
  let toMargins := 0 < free ∧ 0 < autos
  let spacing : Spacing :=
    if 0 < free ∧ autos = 0 then Spacing.justify container.style.justify free line.inFlow else {}
  let edge := container.frame.padding.get axes.lowMain
  { start := if axes.reversed then edge + space - spacing.lead else edge + spacing.lead
    reversed := axes.reversed
    gap := container.mainGap
    autoShare := if toMargins then free.tdiv autos else 0
    autoRemainder := if toMargins then free.tmod autos else 0
    spacing := spacing
    inFlow := line.inFlow }

def begin (track : MainTrack) : MainWalk :=
  { pos := track.start, remainder := track.autoRemainder }

def marginShare (track : MainTrack) (auto : Bool) (remainder : Int) : Int :=
  if auto then track.autoShare + Pixel.bonus remainder else 0

def afterMargin (auto : Bool) (remainder : Int) : Int :=
  if auto then remainder - Pixel.bonus remainder else remainder

/-- Space after the `placed`-th item that takes space. -/
def spaceAfter (track : MainTrack) (placed : Nat) : Int :=
  if placed < track.inFlow then
    track.spacing.between + (if (placed : Int) ≤ track.spacing.spare then 1 else 0) + track.gap
  else 0

/-- The coordinate of an item of a given geometry, and the walk after it. -/
def step (track : MainTrack) (axes : Axes) (walk : MainWalk) (item : Item) (frame : Frame) :
    Int × MainWalk :=
  let inset := frame.fixedMargin axes.lowMain + frame.border.get axes.lowMain
  if item.outOfFlow then
    (walk.pos + inset, walk)
  else
    let lowAuto := frame.isAuto axes.lowMain
    let highAuto := frame.isAuto axes.highMain
    let before := track.marginShare lowAuto walk.remainder
    let between := afterMargin lowAuto walk.remainder
    let after := track.marginShare highAuto between
    let outer := before + after + axes.mainOuter frame
    let placed := walk.placed + 1
    let space := track.spaceAfter placed
    let low := if track.reversed then walk.pos - outer else walk.pos
    (low + inset + before,
      { pos := if track.reversed then low - space else low + outer + space
        remainder := afterMargin highAuto between
        placed := placed })

def coordinates (track : MainTrack) (axes : Axes) (walk : MainWalk) : List (Item × Frame) → List Int
  | [] => []
  | (item, frame) :: rest =>
      let next := track.step axes walk item frame
      next.1 :: track.coordinates axes next.2 rest

end MainTrack

namespace Item

/-- Lay out a child with the main size that its item has been given.  In a row an
`auto` height becomes the height of the content. -/
def giveMainSize (axes : Axes) (item : Item) (kid : Kid) : Run Failure Kid := do
  if axes.horizontal then
    let width := max 0 (item.target - kid.frame.horizontalSurround)
    let sized := kid.withFrame { kid.frame with width := some width }
    let fragment ← kid.layOut sized.fragment width
    let laid := kid.withFragment fragment
    let height := laid.frame.height.getD (fragment.flowHeight kid.box.children)
    return laid.withFrame { laid.frame with height := some height }
  else
    let height := max 0 (item.target - kid.frame.verticalSurround)
    if kid.frame.height = some height then
      return kid
    else
      let sized := kid.withFrame { kid.frame with height := some height }
      return kid.withFragment (← kid.layOut sized.fragment (kid.frame.width.getD 0))

/-- Give the items of a line their main sizes in order.  The answer pairs each item
with the geometry that its child then has; an item without a child drops out. -/
def giveMainSizes (axes : Axes) :
    List Item → List Kid → Run Failure (List (Item × Frame) × List Kid)
  | [], kids => return ([], kids)
  | item :: rest, kids => do
      match kids[item.child]? with
      | none => giveMainSizes axes rest kids
      | some kid =>
          let kid ← giveMainSize axes item kid
          let (sized, kids) ← giveMainSizes axes rest (kids.set item.child kid)
          return ((item, kid.frame) :: sized, kids)

end Item

def moveMain (axes : Axes) (kids : List Kid) (moves : List (Item × Int)) : List Kid :=
  moves.foldl
    (fun kids move =>
      kids.modify move.1.child fun kid => kid.withFrame (axes.moveMain kid.frame move.2))
    kids

namespace Line

def countAutoMargins (axes : Axes) (items : List Item) (kids : List Kid) : Nat :=
  (items.map fun item =>
    match kids[item.child]? with
    | some kid => if item.outOfFlow then 0 else axes.autoMainMargins kid.frame
    | none => 0).sum

/-- Cross size of a line whose items are laid out: the largest outer cross size of
an item that takes space. -/
def raiseCross (axes : Axes) (line : Line) (sized : List (Item × Frame)) : Line :=
  { line with
    cross := (sized.filter fun entry => !entry.1.outOfFlow).foldl
      (fun cross entry => max cross (axes.crossOuter entry.2)) line.cross }

/-- Flex a line and place its items along the main axis. -/
def place (container : Container) (filled : FilledLine) (kids : List Kid) :
    Run Failure (FilledLine × List Kid) := do
  let axes := container.axes
  let counted := { filled.line with autoMargins := countAutoMargins axes filled.items kids }
  let flexed := counted.flex filled.items container.mainSpace container.mainGap
  let (sized, kids) ← Item.giveMainSizes axes flexed.2 kids
  let track := MainTrack.ofLine container flexed.1
  let coordinates := track.coordinates axes track.begin sized
  return (⟨flexed.1.raiseCross axes sized, flexed.2⟩,
    moveMain axes kids ((sized.map Prod.fst).zip coordinates))

/-- Flex and place lines one after the other; `index` numbers the first. -/
def placeAll (container : Container) (index : Nat) :
    List FilledLine → List Kid → Run Failure (List FilledLine × List Kid)
  | [], kids => return ([], kids)
  | filled :: rest, kids => do
      let numbered := filled.items.map fun item => { item with line := index }
      let (placed, kids) ← place container ⟨filled.line, numbered⟩ kids
      let (lines, kids) ← placeAll container (index + 1) rest kids
      return (placed :: lines, kids)

def mainExtent (lines : List FilledLine) : Int :=
  lines.foldl (fun size filled => max size filled.line.main) 0

/-- Cross sizes of a list of lines, without gaps. -/
def crossExtent (lines : List FilledLine) : Int := (lines.map fun filled => filled.line.cross).sum

end Line

namespace Container

def breaking (container : Container) : Breaking where
  wraps := container.style.wrap != .nowrap
  available := container.mainSpace
  gap := container.mainGap

/-- Break items into lines and place each line along the main axis; `index` numbers
the first line. -/
def arrange (container : Container) (index : Nat) (items : List Item) (kids : List Kid) :
    Run Failure (List FilledLine × List Kid) :=
  Line.placeAll container index (Line.breakAll container.breaking items) kids

end Container

end FlexLayout
