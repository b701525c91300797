/-
# FlexLayout.Line -- breaking items into lines

Items fill a line in order.  With wrapping on, an item that would overflow the
available size opens a new line, unless the line is still empty; an item of size
zero or out of flow never does.  Items out of flow join the line without taking
space.

`Line.fill` is one greedy pass over the items.  Each result carries its own items,
so the lines are a partition of the list by construction
(`items_flatMap_breakAll`).
-/
import FlexLayout.Item

namespace FlexLayout

set_option autoImplicit false

structure Line where
  /-- Position of the first item. -/
  first : Nat := 0
  /-- Number of items. -/
  count : Nat := 0
  /-- Number of items that take space. -/
  inFlow : Nat := 0
  /-- Number of `auto` margins along the main axis. -/
  autoMargins : Nat := 0
  /-- How many items have their final size. -/
  frozen : Nat := 0
  /-- Hypothetical sizes and the gaps between them. -/
  main : Int := 0
  cross : Int := 0
  /-- Final sizes and the gaps between them. -/
  used : Int := 0
  /-- Distance from the container's cross-start edge. -/
  offset : Int := 0
deriving DecidableEq, Repr, Inhabited

structure FilledLine where
  line : Line
  items : List Item
deriving DecidableEq, Repr, Inhabited

/-- What decides where lines break. -/
structure Breaking where
  /-- Items may go to further lines. -/
  wraps : Bool
  /-- Available main size, if definite. -/
  available : Option Int
  /-- Space between neighbours. -/
  gap : Int
deriving DecidableEq, Repr, Inhabited

namespace Line

def stop (line : Line) : Nat := line.first + line.count

/-- Space before the next item that takes space. -/
def gapBefore (rule : Breaking) (line : Line) : Int := if 0 < line.inFlow then rule.gap else 0

/-- The next item would reach past the available size. -/
def overflows (rule : Breaking) (line : Line) (item : Item) : Bool :=
  match rule.available with
  | none => false
  | some available => available < line.main + line.gapBefore rule + item.hypothetical

def breaksBefore (rule : Breaking) (line : Line) (item : Item) : Bool :=
  rule.wraps && 0 < line.count && !item.outOfFlow && item.hypothetical != 0
    && line.overflows rule item

def add (rule : Breaking) (line : Line) (item : Item) : Line :=
  if item.outOfFlow then
    { line with count := line.count + 1 }
  else
    { line with
      count := line.count + 1
      inFlow := line.inFlow + 1
      main := line.main + (line.gapBefore rule + item.hypothetical) }

/-- Fill `line`, which holds `taken`, and open further lines as they are needed. -/
def fill (rule : Breaking) (line : Line) (taken : List Item) : List Item → List FilledLine
  | [] => [⟨line, taken⟩]
  | item :: rest =>
      if line.breaksBefore rule item then
        ⟨line, taken⟩ :: fill rule (add rule { first := line.stop } item) [item] rest
      else
        fill rule (line.add rule item) (taken ++ [item]) rest

def breakAll (rule : Breaking) : List Item → List FilledLine
  | [] => []
  | item :: rest => fill rule (add rule {} item) [item] rest

theorem items_flatMap_fill (rule : Breaking) (line : Line) (taken items : List Item) :
    (fill rule line taken items).flatMap FilledLine.items = taken ++ items := by
  induction items generalizing line taken with
  | nil => simp [fill]
  | cons item rest ih => simp only [fill]; split <;> simp [ih]

/-- Lines in order hold all items in order. -/
theorem items_flatMap_breakAll (rule : Breaking) (items : List Item) :
    (breakAll rule items).flatMap FilledLine.items = items := by
  cases items with
  | nil => rfl
  | cons item rest => simp [breakAll, items_flatMap_fill]

end Line

end FlexLayout
