/-
# FlexLayout.Flexing -- resolving flexible lengths

`Line.flex` gives every item of a line its target size.  Items that cannot flex
are frozen at their hypothetical size.  Then, pass by pass, the free space goes to
the unfrozen items in proportion to their grow factors, or is taken from them in
proportion to shrink factor times base size; targets are held to the items'
limits; and the items held from below, or from above, or all of them, are frozen,
according to the sign of the total adjustment.

A line whose factors sum to less than one hands out only that fraction of its
initial free space.  Without a definite available size the line is resolved
against its own size, and nothing flexes.
-/
import FlexLayout.Flexing.Share
import FlexLayout.Line

namespace FlexLayout

set_option autoImplicit false

namespace Item

/-- The item cannot flex in this direction: its factor is zero, or its limits
already moved it the other way. -/
def inflexible (item : Item) (growing : Bool) : Bool :=
  if growing then item.grow.isZero || item.hypothetical < item.base
  else item.shrink.isZero || item.base < item.hypothetical

def start (growing : Bool) (item : Item) : Item :=
  if item.outOfFlow || item.inflexible growing then
    { item with target := item.hypothetical, frozen := true, violation := .none }
  else
    { item with target := item.base, frozen := false, violation := .none }

/-- What an item takes of the line at present: its final size, or its base size. -/
def claim (item : Item) : Int := if item.frozen then item.target else item.base

def shrinkWeight (item : Item) : Int := item.shrink.raw * max item.base 0

/-- Hold a target to the item's limits and note which one it hit. -/
def holdTarget (item : Item) : Item :=
  let capped : Int × Violation := match item.maxMain with
    | some limit => if limit < item.target then (limit, .max) else (item.target, .none)
    | none => (item.target, .none)
  if capped.1 < item.minMain then { item with target := item.minMain, violation := .min }
  else { item with target := capped.1, violation := capped.2 }

theorem target_holdTarget (item : Item) : item.holdTarget.target = item.hold item.target := by
  unfold holdTarget hold
  cases item.maxMain with
  | none => dsimp only; split <;> dsimp only <;> omega
  | some limit =>
      dsimp only
      split <;> split <;> simp_all <;> omega

end Item

namespace Line

/-- Count items as frozen and add the space they take. -/
def tally (line : Line) (frozen : List Item) : Line :=
  { line with
    frozen := line.frozen + frozen.length
    used := frozen.foldl
      (fun used item => if item.outOfFlow then used else Pixel.add used item.target) line.used }

def freeze (line : Line) (cond : Item → Bool) (items : List Item) : Line × List Item :=
  let newly (item : Item) : Bool := !item.frozen && cond item
  (line.tally (items.filter newly),
    items.map fun item => if newly item then { item with frozen := true } else item)

/-- Space left of `available` after what the items in flow take at present. -/
def freeSpace (available : Int) (items : List Item) : Int :=
  items.foldl
    (fun free item => if item.outOfFlow then free else Pixel.sub free item.claim) available

def factorSum (growing : Bool) (items : List Item) : Int :=
  ((items.filter fun item => !item.outOfFlow && !item.frozen).map
    fun item => (item.factor growing).raw).sum

/-- The free space that one pass hands out.  Below a factor sum of one it is at
most that fraction of the initial free space. -/
def passSpace (growing : Bool) (initial available : Int) (items : List Item) : Int :=
  let free := freeSpace available items
  let sum := factorSum growing items
  if sum < 1024 then
    let limited := (Pixel.fit? ((initial * sum).tdiv 1024)).getD initial
    if limited.natAbs < free.natAbs then limited else free
  else free

/-- Hand free space to the unfrozen items by grow factor, or take it from them by
shrink weight.  With no shrink weight at all they keep their hypothetical size. -/
def apportion (growing : Bool) (free : Int) (line : Line) (items : List Item) :
    Line × List Item :=
  if growing then
    (line, Share.deal (fun item => !item.frozen) (fun item => item.grow.raw)
      (fun item share => { item with target := Pixel.add item.base share })
      { amount := free, total := factorSum growing items } items)
  else
    let total := ((items.filter fun item => !item.frozen).map Item.shrinkWeight).sum
    if total ≤ 0 then
      line.freeze (fun _ => true)
        (items.map fun item =>
          if item.frozen then item else { item with target := item.hypothetical })
    else
      (line, Share.deal (fun item => !item.frozen) Item.shrinkWeight
        (fun item share => { item with target := Pixel.sub item.base share })
        { amount := Pixel.magnitude free, total := total } items)

def holdTargets (items : List Item) : List Item :=
  items.map fun item => if item.frozen then item else item.holdTarget

def totalViolation (items : List Item) : Int :=
  (items.filter fun item => !item.frozen).foldl
    (fun total item => Pixel.add total (Pixel.sub item.holdTarget.target item.target)) 0

/-- Which items a total adjustment freezes: all, those raised, or those lowered. -/
def freezes (total : Int) (item : Item) : Bool :=
  total == 0 || (0 < total && item.violation == .min) || (total < 0 && item.violation == .max)

/-- One pass: hand out the free space, hold the targets, freeze. -/
def flexPass (growing : Bool) (initial available : Int) (line : Line) (items : List Item) :
    Line × List Item :=
  let free := passSpace growing initial available items
  let dealt := if free = 0 then (line, items) else apportion growing free line items
  dealt.1.freeze (freezes (totalViolation dealt.2)) (holdTargets dealt.2)

/-- Passes until every item is frozen, at most `n` of them. -/
def flexPasses (growing : Bool) (initial available : Int) :
    Nat → Line → List Item → Line × List Item
  | 0, line, items => (line, items)
  | n + 1, line, items =>
      if items.length ≤ line.frozen then (line, items)
      else
        let next := flexPass growing initial available line items
        flexPasses growing initial available n next.1 next.2

def roomFor (line : Line) (available : Option Int) (gap : Int) : Int :=
  Pixel.sub (available.getD line.main) (Pixel.gapsBetween line.inFlow gap)

def grows (line : Line) (available : Option Int) (gap : Int) : Bool :=
  Pixel.sub line.main (Pixel.gapsBetween line.inFlow gap) < line.roomFor available gap

/-- Resolve the target size of every item on a line. -/
def flex (line : Line) (items : List Item) (available : Option Int) (gap : Int) :
    Line × List Item :=
  let room := line.roomFor available gap
  let growing := line.grows available gap
  let started := items.map (Item.start growing)
  let opened := { line with used := 0, frozen := 0 }.tally (started.filter Item.frozen)
  let passed :=
    flexPasses growing (freeSpace room started) room (items.length + 1) opened started
  let closed := passed.1.freeze (fun _ => true) passed.2
  ({ closed.1 with used := Pixel.add closed.1.used (Pixel.gapsBetween line.inFlow gap) }, closed.2)

end Line

end FlexLayout
