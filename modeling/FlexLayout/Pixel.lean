/-
# FlexLayout.Pixel -- whole pixels and their 32-bit range

Every length that layout has resolved is a whole number of pixels, held as an
`Int`.  Sums of edges and sizes are exact.  Where a quantity has to stay inside
the signed 32-bit range whatever the style says -- free space, flexed sizes,
fixed-point factors -- the operation is `Pixel.add` or `Pixel.sub`, which stop at
the ends of the range (`saturate`).  Inside the range they are ordinary
arithmetic (`saturate_of_inRange`).

Counts enter pixel arithmetic through `ofCount`, which keeps the low 32 bits and
reads them as a signed number; below `2 ^ 31` it changes nothing
(`ofCount_of_lt`).
-/

namespace FlexLayout.Pixel

set_option autoImplicit false

-- Sums and powers are those of the numerals, also in a module that imports algebra.
instance (priority := high) zeroInt : Zero Int := Zero.ofOfNat0
instance (priority := high) zeroNat : Zero Nat := Zero.ofOfNat0
instance (priority := high) powNat : Pow Nat Nat := instPowNat

/-- The signed 32-bit range. -/
def InRange (v : Int) : Prop := -2147483648 ≤ v ∧ v ≤ 2147483647

instance (v : Int) : Decidable (InRange v) := by unfold InRange; infer_instance

/-- The nearest value of the 32-bit range. -/
def saturate (v : Int) : Int := max (-2147483648) (min v 2147483647)

theorem inRange_saturate (v : Int) : InRange (saturate v) := by
  unfold InRange saturate; omega

theorem saturate_of_inRange {v : Int} (h : InRange v) : saturate v = v := by
  unfold InRange at h; unfold saturate; omega

theorem saturate_saturate (v : Int) : saturate (saturate v) = saturate v :=
  saturate_of_inRange (inRange_saturate v)

theorem saturate_mono {v w : Int} (h : v ≤ w) : saturate v ≤ saturate w := by
  unfold saturate; omega

/-- Sum that stops at the ends of the range. -/
def add (v w : Int) : Int := saturate (v + w)

def sub (v w : Int) : Int := saturate (v - w)

def magnitude (v : Int) : Int := saturate (v.natAbs : Int)

theorem add_of_inRange {v w : Int} (h : InRange (v + w)) : add v w = v + w :=
  saturate_of_inRange h

theorem sub_of_inRange {v w : Int} (h : InRange (v - w)) : sub v w = v - w :=
  saturate_of_inRange h

def fit? (v : Int) : Option Int := if InRange v then some v else none

theorem fit?_of_inRange {v : Int} (h : InRange v) : fit? v = some v := if_pos h

/-- The low 32 bits of `v`, read as a signed number. -/
def wrap (v : Int) : Int := v.bmod 4294967296

theorem wrap_of_inRange {v : Int} (h : InRange v) : wrap v = v := by
  unfold InRange at h; unfold wrap; exact Int.bmod_eq_of_le (by omega) (by omega)

def ofCount (n : Nat) : Int := wrap n

theorem ofCount_of_lt {n : Nat} (h : n < 2147483648) : ofCount n = n :=
  wrap_of_inRange (by unfold InRange; omega)

/-- One extra pixel while a remainder lasts. -/
def bonus (remainder : Int) : Int := if 0 < remainder then 1 else 0

/-- Total gap space between `count` boxes in a row: one gap fewer than boxes. -/
def gapsBetween (count : Nat) (gap : Int) : Int :=
  if 1 < count then (ofCount count - 1) * gap else 0

theorem gapsBetween_of_lt {count : Nat} (gap : Int) (one_lt : 1 < count) (h : count < 2147483648) :
    gapsBetween count gap = ((count : Int) - 1) * gap := by
  simp [gapsBetween, one_lt, ofCount_of_lt h]

end FlexLayout.Pixel
