/-
# FlexLayout.Spacing -- justified free space in whole pixels

`Spacing.justify` turns the free space of a line into a leading offset and space
between neighbours.  Pixels that do not divide evenly go to the leading offset or
to the earliest spaces between items, so all of the free space is accounted for.

The number of items takes part in the division as a 32-bit count.  Two counts
that wrap around leave no quotient: `Spacing.fault?` says which.
-/
import FlexLayout.Pixel
import FlexLayout.Style

namespace FlexLayout

set_option autoImplicit false

/-- How the free space of a line is laid out. -/
structure Spacing where
  /-- Before the first item. -/
  lead : Int := 0
  /-- Between neighbours. -/
  between : Int := 0
  /-- How many of the spaces between neighbours get one more pixel. -/
  spare : Int := 0
deriving DecidableEq, Repr, Inhabited

/-- Why free space cannot be divided among a wrapped count. -/
inductive DivisionFault where
  /-- There are no slots. -/
  | byZero
  /-- The quotient does not fit the 32-bit range. -/
  | overflow
deriving DecidableEq, Repr, Inhabited

def DivisionFault.message : DivisionFault → String
  | .byZero => "attempt to divide by zero"
  | .overflow => "attempt to divide with overflow"

namespace Spacing

def justify (mode : Justify) (free : Int) (count : Nat) : Spacing :=
  let items := Pixel.ofCount count
  match mode with
  | .flexStart => {}
  | .flexEnd => { lead := free }
  | .center => { lead := free - free.tdiv 2 }
  | .spaceBetween =>
      if 1 < items then
        { between := free.tdiv (items - 1), spare := free.tmod (items - 1) }
      else {}
  | .spaceAround =>
      if 0 < items then
        let share := free.tdiv items
        { lead := share - share.tdiv 2, between := share, spare := free.tmod items }
      else {}
  | .spaceEvenly =>
      let share := free.tdiv (items + 1)
      let left := free.tmod (items + 1)
      { lead := share + Pixel.bonus left
        between := share
        spare := left - Pixel.bonus left }

def fault? (mode : Justify) (free : Int) (count : Nat) : Option DivisionFault :=
  let slots := Pixel.ofCount count + 1
  if mode ≠ .spaceEvenly then none
  else if slots = 0 then some .byZero
  else if slots = -1 ∧ free = -2147483648 then some .overflow
  else none

/-- Divide `free` pixels among `count` items, or say why that is impossible. -/
def justify? (mode : Justify) (free : Int) (count : Nat) : Except DivisionFault Spacing :=
  match fault? mode free count with
  | some fault => .error fault
  | none => .ok (justify mode free count)

end Spacing

end FlexLayout
