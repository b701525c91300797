/-
# FlexLayout.Factor -- fixed-point flex factors

Grow and shrink factors are signed fixed-point numbers with ten fractional bits
in a 32-bit word: the factor with raw value `r` is `r / 1024`.  The free space of
a line is divided with these numbers, so the same style gives the same pixels
everywhere.

All arithmetic stops at the ends of the word.  A product is rounded down to a
multiple of `1 / 1024`; a quotient is cut toward zero, and there is none when the
divisor is zero (`div?_eq_none_iff`).
-/
import FlexLayout.Binary32

namespace FlexLayout

set_option autoImplicit false

/-- A number with ten fractional bits: `raw / 1024`. -/
structure Factor where
  raw : Int
  inRange : Pixel.InRange raw
deriving DecidableEq

namespace Factor

@[ext] theorem ext {a b : Factor} (h : a.raw = b.raw) : a = b := by
  cases a; cases b; cases h; rfl

/-- The factor with the representable raw value nearest to `raw`. -/
def ofRaw (raw : Int) : Factor := ⟨Pixel.saturate raw, Pixel.inRange_saturate raw⟩

@[simp] theorem raw_ofRaw (raw : Int) : (ofRaw raw).raw = Pixel.saturate raw := rfl

theorem ofRaw_raw (a : Factor) : ofRaw a.raw = a :=
  ext (Pixel.saturate_of_inRange a.inRange)

instance : Zero Factor := ⟨ofRaw 0⟩
instance : One Factor := ⟨ofRaw 1024⟩
instance : Inhabited Factor := ⟨0⟩

theorem raw_zero : (0 : Factor).raw = 0 := rfl

theorem raw_one : (1 : Factor).raw = 1024 := rfl

instance : Repr Factor := ⟨fun a _ => repr a.raw ++ "/1024"⟩

def ofInt (n : Int) : Factor := ofRaw (n * 1024)

/-- A style number as a factor, to the nearest `1 / 1024`. -/
def ofFloat (x : Float32) : Factor := ⟨Binary32.nearest 10 x, Binary32.inRange_nearest 10 x⟩

/-- A flex factor of a style: negative numbers count as zero. -/
def ofStyle (x : Float32) : Factor := ofRaw (max 0 (ofFloat x).raw)

theorem raw_ofStyle_nonneg (x : Float32) : 0 ≤ (ofStyle x).raw := by
  simp only [ofStyle, raw_ofRaw, Pixel.saturate]; omega

def floor (a : Factor) : Int := a.raw / 1024

/-- What is left above `floor`, below one and not negative. -/
def frac (a : Factor) : Factor := ofRaw (a.raw % 1024)

theorem floor_add_frac (a : Factor) : a.floor * 1024 + a.frac.raw = a.raw := by
  simp only [floor, frac, raw_ofRaw, Pixel.saturate]; omega

instance : Add Factor := ⟨fun a b => ofRaw (a.raw + b.raw)⟩
instance : Sub Factor := ⟨fun a b => ofRaw (a.raw - b.raw)⟩
instance : Neg Factor := ⟨fun a => ofRaw (-a.raw)⟩

/-- Product, rounded down to a multiple of `1 / 1024`. -/
instance : Mul Factor := ⟨fun a b => ofRaw (a.raw * b.raw / 1024)⟩

theorem raw_add (a b : Factor) : (a + b).raw = Pixel.saturate (a.raw + b.raw) := rfl

theorem raw_sub (a b : Factor) : (a - b).raw = Pixel.saturate (a.raw - b.raw) := rfl

theorem raw_neg (a : Factor) : (-a).raw = Pixel.saturate (-a.raw) := rfl

theorem raw_mul (a b : Factor) : (a * b).raw = Pixel.saturate (a.raw * b.raw / 1024) := rfl

/-- Quotient cut toward zero to a multiple of `1 / 1024`. -/
def div? (a b : Factor) : Option Factor :=
  if b.raw = 0 then none else some (ofRaw ((a.raw * 1024).tdiv b.raw))

theorem div?_eq_none_iff (a b : Factor) : a.div? b = none ↔ b.raw = 0 := by
  unfold div?; split <;> simp_all

instance : Ord Factor := ⟨fun a b => compare a.raw b.raw⟩

def isZero (a : Factor) : Bool := a.raw == 0

def toFloat (a : Factor) : Float32 := Float32.ofInt a.raw / Float32.ofInt 1024

/-- Three decimals of the nearest single-precision number. -/
def text (a : Factor) : String := Binary32.decimal 3 a.toFloat

end Factor

end FlexLayout
