/-
# FlexLayout.Slack -- a column whose height became definite late

A column container may be given a height after it was laid out, for instance when
its parent stretches it.  `Slack.spread` hands the height that is left over to
growing children, then to `auto` top and bottom margins, and stacks the children
again; nested columns follow.  Boxes of any other kind are left alone, and so is a
column without left-over height.

Only heights and vertical positions change (`Slack.Entry.settled`).
-/
import FlexLayout.Container
import FlexLayout.Factor
import FlexLayout.Flexing.Share

namespace FlexLayout

set_option autoImplicit false

namespace Slack

/-- A child that takes part in stacking: its position among the children, its box
and its geometry. -/
structure Entry where
  child : Nat
  box : Box
  frame : Frame

namespace Entry

def grow (entry : Entry) : Factor := Factor.ofStyle entry.box.style.grow

def autoMargins (entry : Entry) : Nat :=
  (entry.frame.isAuto .top).toNat + (entry.frame.isAuto .bottom).toNat

def maxHeight? (resolve : Resolver) (entry : Entry) : Option Int :=
  entry.box.style.contentSize? resolve entry.box.style.maxHeight none entry.frame.verticalInset

/-- Offer more height to the child.  It takes no more than its maximum, and never
less than it has. -/
def offer (resolve : Resolver) (entry : Entry) (share : Int) : Entry :=
  let current := entry.frame.height.getD 0
  let wanted := Pixel.add current share
  let capped := match entry.maxHeight? resolve with
    | none => wanted
    | some limit => min wanted limit
  { entry with frame := { entry.frame with height := some (max capped current) } }

/-- Height of the child, with an unknown height as zero. -/
def height (entry : Entry) : Int := entry.frame.height.getD 0

/-- Move the child vertically. -/
def settled (entry : Entry) (y : Int) : Entry := { entry with frame := { entry.frame with y := y } }

/-- Stacking order: by `order`, then by position. -/
def precedes (a b : Entry) : Bool :=
  a.box.style.order < b.box.style.order
    || (a.box.style.order == b.box.style.order && a.child ≤ b.child)

end Entry

/-- The children that are stacked, in document order, with their positions. -/
def entriesFrom (child : Nat) : List Box → List Frame → List Entry
  | box :: boxes, frame :: frames =>
      let rest := entriesFrom (child + 1) boxes frames
      if box.participates && !box.outOfFlow then ⟨child, box, frame⟩ :: rest else rest
  | _, _ => []

def inStackOrder (boxes : List Box) (frames : List Frame) : List Entry :=
  (entriesFrom 0 boxes frames).mergeSort Entry.precedes

def extra (height gap : Int) (entries : List Entry) : Int :=
  height - (entries.map fun entry => entry.frame.marginBoxHeight).sum
    - Pixel.gapsBetween entries.length gap

/-- The part of the extra height that growing children may take: all of it, or the
fraction that their factors sum to when that is below one. -/
def growRoom (extra factors : Int) : Int :=
  if factors < 1024 then (Pixel.fit? ((extra * factors).tdiv 1024)).getD extra else extra

/-- Offer extra height to the children with a grow factor, in proportion. -/
def growEntries (resolve : Resolver) (extra : Int) (entries : List Entry) : List Entry :=
  let factors := (entries.map fun entry => entry.grow.raw).sum
  if factors = 0 then entries
  else
    Share.deal (fun entry => !entry.grow.isZero) (fun entry => entry.grow.raw)
      (fun entry share => entry.offer resolve share)
      { amount := growRoom extra factors, total := factors } entries

/-- The vertical walk over a stack. -/
structure Stacking where
  /-- The stack is built upward from its lower end. -/
  reversed : Bool
  gap : Int
  /-- Pixels for each `auto` margin. -/
  share : Int

/-- Place the children one after the other; `remainder` of the next `auto` margins
get one more pixel. -/
def stack (s : Stacking) (pos remainder : Int) : List Entry → List Entry
  | [] => []
  | entry :: rest =>
      let topAuto := entry.frame.isAuto .top
      let bottomAuto := entry.frame.isAuto .bottom
      let top := if topAuto then s.share + Pixel.bonus remainder else 0
      let afterTop := if topAuto then remainder - Pixel.bonus remainder else remainder
      let bottom := if bottomAuto then s.share + Pixel.bonus afterTop else 0
      let afterBottom := if bottomAuto then afterTop - Pixel.bonus afterTop else afterTop
      let outer := top + bottom + entry.frame.marginBoxHeight
      let low := if s.reversed then pos - outer else pos
      let y := low + top + entry.frame.fixedMargin .top + entry.frame.border.top
      entry.settled y ::
        stack s (if s.reversed then low - s.gap else low + outer + s.gap) afterBottom rest

def restack (container : Frame) (reversed : Bool) (height gap left : Int) (entries : List Entry) :
    List Entry :=
  let autos : Int := ((entries.map Entry.autoMargins).sum : Nat)
  let top := container.padding.top
  stack { reversed := reversed, gap := gap, share := if 0 < autos then left.tdiv autos else 0 }
    (if reversed then top + height else top)
    (if 0 < autos then left.tmod autos else 0) entries

/-- Hand out the extra height of one container: the stacked children that changed,
with their new geometry. -/
def settle (resolve : Resolver) (style : Style) (container : Frame) (height : Int)
    (entries : List Entry) : List Entry :=
  let gap := (style.gaps resolve container).1
  let free := extra height gap entries
  if free ≤ 0 then []
  else
    let grown := growEntries resolve free entries
    let growth := (grown.map Entry.height).sum - (entries.map Entry.height).sum
    if (entries.map Entry.autoMargins).sum = 0 ∧ growth = 0 then grown
    else restack container style.direction.axes.reversed height gap (free - growth) grown

def writeBack (fragments : List Fragment) (entries : List Entry) : List Fragment :=
  entries.foldl
    (fun fragments entry =>
      fragments.modify entry.child fun fragment => { fragment with frame := entry.frame })
    fragments

/-- Hand out extra height in one container, if it is a column of definite height. -/
def spreadHere (resolve : Resolver) (style : Style) (boxes : List Box) (fragment : Fragment) :
    List Fragment :=
  match fragment.frame.height with
  | none => fragment.children
  | some height =>
      let entries := inStackOrder boxes (fragment.children.map Fragment.frame)
      writeBack fragment.children (settle resolve style fragment.frame height entries)

mutual

/-- Hand out the left-over height of a column container and of the columns nested
in it. -/
def spread (resolve : Resolver) : Box → Fragment → Fragment
  | ⟨kind, style, _, _, _, boxes⟩, fragment =>
      if kind.isFlex && !style.direction.axes.horizontal then
        { fragment with
          children := spreadAll resolve boxes (spreadHere resolve style boxes fragment) }
      else fragment

def spreadAll (resolve : Resolver) : List Box → List Fragment → List Fragment
  | box :: boxes, fragment :: fragments =>
      spread resolve box fragment :: spreadAll resolve boxes fragments
  | _, fragments => fragments

end

end Slack

end FlexLayout
