/-
# FlexLayout.Host -- simple hosts for boxes that are no flex containers

A host lays out block, table and grid boxes in one of three ways.

* `leaf` gives a box the width it is offered and a height of zero, where these are
  not imposed, and ignores its children.
* `stack` stacks the children from top to bottom, each laid out at the box's width,
  and makes an `auto` height the sum of their outer heights.
* `noop` leaves the box as it is.

Every call is logged.  A host can be told to refuse one kind of box, or the call at
one position of the log.
-/
import FlexLayout.Layout

namespace FlexLayout

set_option autoImplicit false

inductive Conduct where
  | leaf
  | stack
  | noop
deriving DecidableEq, Repr, Inhabited

structure Host where
  conduct : Conduct := .leaf
  units : Units := {}
  /-- Lengths have pixels at all. -/
  resolves : Bool := true
  /-- Refuse boxes of this kind. -/
  failing : Option BoxKind := none
  /-- Refuse the call at this position. -/
  failCall : Option Nat := none
deriving Repr, Inhabited

namespace Host

def resolve (host : Host) : Resolver :=
  if host.resolves then host.units.resolve else fun _ _ _ => none

def refuses (host : Host) (kind : BoxKind) (position : Nat) : Bool :=
  host.failing == some kind || host.failCall == some position

/-- Width of a stacked child on entry: a block of `auto` width fills its parent. -/
def stackedFrame (resolve : Resolver) (width : Int) (kid : Kid) : Frame :=
  let sized := kid.frame.withSizes resolve kid.box.style width
  if kid.box.kind = .block ∧ sized.width = none then
    { sized with width := some (max 0 (width - sized.horizontalSurround)) }
  else sized

/-- Stack children below each other from `cursor` down, in a box of a given padding
and width.  The answer holds the children's geometry and the cursor below them. -/
def stackKids (resolve : Resolver) (left width : Int) :
    (cursor : Int) → List Kid → Run Cause (List Fragment × Int)
  | cursor, [] => return ([], cursor)
  | cursor, kid :: rest => do
      let entry := kid.withFrame (stackedFrame resolve width kid)
      let fragment ← Run.mapFailure Cause.nested (kid.layOut entry.fragment width)
      let frame := fragment.frame
      let placed := { frame with
        x := left + frame.fixedMargin .left + frame.border.left
        y := cursor + frame.fixedMargin .top + frame.border.top }
      let (fragments, bottom) ← stackKids resolve left width (cursor + frame.marginBoxHeight) rest
      return ({ fragment with frame := placed } :: fragments, bottom)

/-- Lay out the contents of a box that is no flex container. -/
def layOutContents (host : Host) (kind : BoxKind) (available : Option Int) (frame : Frame)
    (kids : List Kid) : Run Cause Fragment := do
  let position ← Run.record
    { kind := kind, available := available, width := frame.width, height := frame.height
      children := kids.length }
  if host.refuses kind position then
    throw (Cause.refused kind kids.length)
  let children := kids.map Kid.fragment
  let wide := { frame with width := frame.width <|> available }
  match host.conduct with
  | .noop => return { frame := frame, children := children }
  | .leaf =>
      return { frame := { wide with height := some (wide.height.getD 0) }, children := children }
  | .stack =>
      let top := wide.padding.top
      let (children, bottom) ←
        stackKids host.resolve wide.padding.left (wide.width.getD 0) top kids
      return { frame := { wide with height := some (wide.height.getD (bottom - top)) }
               children := children }

def environment (host : Host) : Environment where
  resolve := host.resolve
  layOutContents := host.layOutContents

end Host

end FlexLayout
