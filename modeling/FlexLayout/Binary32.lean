/-
# FlexLayout.Binary32 -- exact reading of single-precision numbers

Style numbers are single-precision floats.  Everything that leaves them -- pixels,
fixed-point factors, decimal text -- goes through `read`, which takes the bit
pattern apart into a sign and an exact dyadic magnitude, so the rounding that
follows is integer arithmetic.

`nearest` rounds to a multiple of a power of two, halves away from zero, and
stays inside the 32-bit range.  `decimal` writes a number with a fixed count of
decimal places, halves to the even neighbour.
-/
import FlexLayout.Pixel

namespace FlexLayout.Binary32

set_option autoImplicit false

/-- What a bit pattern stands for.  A finite number has magnitude
`significand * 2 ^ exponent`. -/
inductive Reading where
  | notANumber
  | infinite (negative : Bool)
  | finite (negative : Bool) (significand : Nat) (exponent : Int)
deriving DecidableEq, Repr

/-- Take a number's bit pattern apart: one sign bit, eight exponent bits biased
by 127, and 23 fraction bits below an implicit leading one. -/
def read (x : Float32) : Reading :=
  let bits : Nat := x.toBits.toNat
  -- The sign has weight `2 ^ 31`, the lowest bit of the exponent `2 ^ 23`.
  let negative := bits / 2147483648 % 2 == 1
  let biased : Nat := bits / 8388608 % 256
  let fraction : Nat := bits % 8388608
  if biased = 255 then
    if fraction = 0 then .infinite negative else .notANumber
  else if biased = 0 then
    .finite negative fraction (-149)
  else
    .finite negative (fraction + 8388608) ((biased : Int) - 150)

def signed (negative : Bool) (magnitude : Nat) : Int :=
  if negative then -(magnitude : Int) else magnitude

/-- `significand * 2 ^ exponent` to the nearest integer, halves upward. -/
def roundHalfUp (significand : Nat) (exponent : Int) : Nat :=
  if 0 ≤ exponent then
    significand * 2 ^ exponent.toNat
  else
    let unit := 2 ^ (-exponent).toNat
    (2 * significand + unit) / (2 * unit)

/-- The quotient to the nearest integer, halves to the even neighbour. -/
def roundHalfEven (numerator denominator : Nat) : Nat :=
  let quotient := numerator / denominator
  let twice := 2 * (numerator % denominator)
  if denominator < twice ∨ (twice = denominator ∧ quotient % 2 = 1) then quotient + 1 else quotient

/-- `x * 2 ^ scale` to the nearest integer, halves away from zero, held to the
32-bit range; what is not a number counts as zero. -/
def nearest (scale : Nat) (x : Float32) : Int :=
  match read x with
  | .notANumber => 0
  | .infinite negative => if negative then -2147483648 else 2147483647
  | .finite negative significand exponent =>
      Pixel.saturate (signed negative (roundHalfUp significand (exponent + scale)))

theorem inRange_nearest (scale : Nat) (x : Float32) : Pixel.InRange (nearest scale x) := by
  unfold nearest
  split
  · decide
  · split <;> decide
  · exact Pixel.inRange_saturate _

def toPixels (x : Float32) : Int := nearest 0 x

/-- The digits of `n`, padded on the left with zeros to at least `width`. -/
def padded (width n : Nat) : String :=
  let digits := Nat.repr n
  String.ofList (List.replicate (width - digits.length) '0') ++ digits

/-- `units` hundredths, thousandths, … as text with `places` decimals. -/
def fixedPlaces (places units : Nat) : String :=
  s!"{Nat.repr (units / 10 ^ places)}.{padded places (units % 10 ^ places)}"

/-- The number with exactly `places` decimals, a half going to the even
neighbour.  The sign of a negative number is kept when it rounds to zero. -/
def decimal (places : Nat) (x : Float32) : String :=
  match read x with
  | .notANumber => "NaN"
  | .infinite negative => if negative then "-inf" else "inf"
  | .finite negative significand exponent =>
      let scaled := significand * 10 ^ places
      let units :=
        if 0 ≤ exponent then scaled * 2 ^ exponent.toNat
        else roundHalfEven scaled (2 ^ (-exponent).toNat)
      (if negative then "-" else "") ++ fixedPlaces places units

end FlexLayout.Binary32
