/-
# FlexLayout.Proofs.Factors -- products and quotients of factors

A quotient is cut toward zero and a product is rounded down, and both stop at the ends of
the 32-bit word.  Multiplying a quotient by its divisor gives back the dividend up to what the
two roundings lose: less than one step of the divisor and less than one of the product
(`mul_of_div?`).  It never passes the dividend, so it stays in range.

Products and quotients are monotone whatever the signs, since rounding and saturation are
(`mul_mono`, `div?_mono`).  Every number on the way fits a 64-bit word, so they can be computed
there (`wordSized`).
-/
import FlexLayout.Factor

namespace FlexLayout

set_option autoImplicit false

/-! ## Numbers -/

/-- **What a quotient leaves** is smaller than the divisor, no larger than the dividend, and
has its sign. -/
theorem tmod_small {divisor : Int} (nonzero : divisor ≠ 0) (dividend : Int) :
    (dividend.tmod divisor).natAbs < divisor.natAbs ∧
      (dividend.tmod divisor).natAbs ≤ dividend.natAbs ∧
      (0 ≤ dividend → 0 ≤ dividend.tmod divisor) ∧
      (dividend ≤ 0 → dividend.tmod divisor ≤ 0) := by
  rw [Int.natAbs_tmod]
  refine ⟨Nat.mod_lt _ (by omega), Nat.mod_le _ _, Int.tmod_nonneg divisor, fun negative => ?_⟩
  have mirrored := Int.tmod_nonneg (a := -dividend) divisor (by omega)
  rw [Int.neg_tmod] at mirrored
  omega

/-- The signed 64-bit range. -/
def FitsWord (v : Int) : Prop := -9223372036854775808 ≤ v ∧ v ≤ 9223372036854775807

theorem FitsWord.bmod {v : Int} (fits : FitsWord v) : v.bmod 18446744073709551616 = v := by
  simp only [FitsWord] at fits
  exact Int.bmod_eq_of_le (by omega) (by omega)

theorem fitsWord_mul {v w : Int} (left : Pixel.InRange v) (right : Pixel.InRange w) :
    FitsWord (v * w) := by
  simp only [Pixel.InRange] at left right
  have most : (v * w).natAbs ≤ 2147483648 * 2147483648 := by
    rw [Int.natAbs_mul]
    exact Nat.mul_le_mul (by omega) (by omega)
  simp only [FitsWord]
  omega

namespace Factor

variable {a b c : Factor}

/-! ## Rounding -/

theorem div?_of_ne (nonzero : b.raw ≠ 0) :
    a.div? b = some (ofRaw ((a.raw * 1024).tdiv b.raw)) := if_neg nonzero

/-- **A quotient times its divisor** stays in range, and misses the dividend by less than
the divisor's part of a step and one step more. -/
theorem mul_of_div? (nonzero : b.raw ≠ 0) (fits : Pixel.InRange ((a.raw * 1024).tdiv b.raw)) :
    ∃ quotient, a.div? b = some quotient ∧ quotient.raw = (a.raw * 1024).tdiv b.raw ∧
      Pixel.InRange (quotient.raw * b.raw / 1024) ∧
      (quotient * b).raw = quotient.raw * b.raw / 1024 ∧
      (a.raw - (quotient * b).raw).natAbs * 1024 < b.raw.natAbs + 1024 := by
  have whole : (ofRaw ((a.raw * 1024).tdiv b.raw)).raw = (a.raw * 1024).tdiv b.raw :=
    Pixel.saturate_of_inRange fits
  have split := Int.tdiv_mul_add_tmod (a.raw * 1024) b.raw
  obtain ⟨less, most, above, below⟩ := tmod_small nonzero (a.raw * 1024)
  have range := a.inRange
  simp only [Pixel.InRange] at range
  -- The product lies between zero and the dividend, so rounding it down does too.
  have inRange : Pixel.InRange ((a.raw * 1024).tdiv b.raw * b.raw / 1024) := by
    simp only [Pixel.InRange]
    omega
  refine ⟨_, div?_of_ne nonzero, whole, whole.symm ▸ inRange, ?_, ?_⟩
  · rw [raw_mul, whole, Pixel.saturate_of_inRange inRange]
  · rw [raw_mul, whole, Pixel.saturate_of_inRange inRange]
    omega

/-! ## Order -/

theorem mul_comm (a b : Factor) : a * b = b * a :=
  ext (by rw [raw_mul, raw_mul, Int.mul_comm])

theorem mul_one (a : Factor) : a * 1 = a := by
  refine ext ?_
  rw [raw_mul, raw_one, Int.mul_ediv_cancel _ (by decide), Pixel.saturate_of_inRange a.inRange]

/-- **A larger factor has the larger product** with one that is not negative. -/
theorem mul_mono (positive : 0 ≤ c.raw) (le : a.raw ≤ b.raw) : (a * c).raw ≤ (b * c).raw := by
  rw [raw_mul, raw_mul]
  refine Pixel.saturate_mono (Int.ediv_le_ediv (by decide) ?_)
  exact Int.mul_le_mul_of_nonneg_right le positive

/-- **A larger factor has the larger quotient** by one that is positive. -/
theorem div?_mono (positive : 0 < c.raw) (le : a.raw ≤ b.raw) :
    ∃ less more, a.div? c = some less ∧ b.div? c = some more ∧ less.raw ≤ more.raw := by
  have nonzero : c.raw ≠ 0 := by omega
  refine ⟨_, _, div?_of_ne nonzero, div?_of_ne nonzero, ?_⟩
  rw [raw_ofRaw, raw_ofRaw]
  exact Pixel.saturate_mono (Int.tdiv_le_tdiv positive (by omega))

/-! ## Words -/

def word (a : Factor) : Int64 := Int64.ofInt a.raw

theorem toInt_word (a : Factor) : a.word.toInt = a.raw := by
  have range := a.inRange
  simp only [Pixel.InRange] at range
  exact Int64.toInt_ofInt_of_le (by omega) (by omega)

/-- The product and the quotient of two factors are computed in 64-bit words, with no word
too small for what it holds. -/
structure WordSized (a b : Factor) : Prop where
  product : (a.word * b.word).toInt = a.raw * b.raw
  scaled : (a.word <<< 10).toInt = a.raw * 1024
  mul : (a * b).raw = Pixel.saturate ((a.word * b.word) >>> 10).toInt
  div : b.raw ≠ 0 →
    ((a.word <<< 10) / b.word).toInt = (a.raw * 1024).tdiv b.raw ∧
      ∃ quotient, a.div? b = some quotient ∧
        quotient.raw = Pixel.saturate ((a.word <<< 10) / b.word).toInt

theorem toInt_shiftRight_ten (v : Int64) : (v >>> 10).toInt = v.toInt / 1024 := by
  show (v >>> 10).toBitVec.toInt = _
  rw [Int64.toBitVec_shiftRight, show (10 : Int64).toBitVec.smod 64 = 10#64 by decide,
    BitVec.sshiftRight', BitVec.toInt_sshiftRight, Int.shiftRight_eq_div_pow]
  rfl

theorem toInt_shiftLeft_ten {v : Int64} (fits : FitsWord (v.toInt * 1024)) :
    (v <<< 10).toInt = v.toInt * 1024 := by
  show (v <<< 10).toBitVec.toInt = _
  rw [Int64.toBitVec_shiftLeft, show (10 : Int64).toBitVec.smod 64 = 10#64 by decide,
    BitVec.shiftLeft_eq', BitVec.shiftLeft_eq_mul_twoPow, BitVec.toInt_mul]
  exact fits.bmod

/-- **64-bit words are large enough** for products and quotients. -/
theorem wordSized (a b : Factor) : WordSized a b := by
  have product : (a.word * b.word).toInt = a.raw * b.raw := by
    rw [Int64.toInt_mul, toInt_word, toInt_word]
    exact (fitsWord_mul a.inRange b.inRange).bmod
  have room : FitsWord (a.raw * 1024) := fitsWord_mul a.inRange (by decide)
  have scaled : (a.word <<< 10).toInt = a.raw * 1024 := by
    rw [toInt_shiftLeft_ten (by rwa [toInt_word]), toInt_word]
  refine ⟨product, scaled, ?_, fun nonzero => ?_⟩
  · rw [toInt_shiftRight_ten, product, raw_mul]
  · have quotient : ((a.word <<< 10) / b.word).toInt = (a.raw * 1024).tdiv b.raw := by
      have small := Int.natAbs_tdiv_le_natAbs (a.raw * 1024) b.raw
      have range := a.inRange
      simp only [Pixel.InRange] at range
      rw [Int64.toInt_div, scaled, toInt_word]
      refine FitsWord.bmod ?_
      simp only [FitsWord]
      omega
    exact ⟨quotient, _, div?_of_ne nonzero, by rw [quotient, raw_ofRaw]⟩

/-- **Products undo quotients up to rounding.**  A quotient that is in range, multiplied by
its divisor, does not leave the range, and comes back to the dividend up to less than a
step and the divisor's part of a step.  Products commute, one is neutral, and products with
and quotients by positive factors are monotone.  All of it can be computed in 64-bit words. -/
theorem products_undo_quotients (a b : Factor) :
    (b.raw ≠ 0 → Pixel.InRange ((a.raw * 1024).tdiv b.raw) →
      ∃ quotient, a.div? b = some quotient ∧ quotient.raw = (a.raw * 1024).tdiv b.raw ∧
        Pixel.InRange (quotient.raw * b.raw / 1024) ∧
        (a.raw - (quotient * b).raw).natAbs * 1024 < b.raw.natAbs + 1024) ∧
    a * b = b * a ∧ a * 1 = a ∧ 1 * a = a ∧
    (∀ more : Factor, 0 < b.raw → a.raw ≤ more.raw →
      (a * b).raw ≤ (more * b).raw ∧
        ∃ less greater, a.div? b = some less ∧ more.div? b = some greater ∧
          less.raw ≤ greater.raw) ∧
    WordSized a b := by
  refine ⟨fun nonzero fits => ?_, mul_comm a b, mul_one a, ?_, fun more positive le => ?_,
    wordSized a b⟩
  · obtain ⟨quotient, found, raw, inRange, -, near⟩ := mul_of_div? nonzero fits
    exact ⟨quotient, found, raw, inRange, near⟩
  · rw [mul_comm, mul_one]
  · exact ⟨mul_mono (Int.le_of_lt positive) le, div?_mono positive le⟩

/-- The least factor by three: the quotient is cut toward zero, and three times that is two
steps above the least factor. -/
theorem products_undo_quotients_least :
    let least : Factor := ofRaw (-2147483648)
    let three : Factor := ofInt 3
    three.raw ≠ 0 ∧ Pixel.InRange ((least.raw * 1024).tdiv three.raw) ∧
      ∃ quotient, least.div? three = some quotient ∧ quotient.raw = -715827882 ∧
        (quotient * three).raw = -2147483646 ∧
        (least.raw - (quotient * three).raw).natAbs * 1024 < three.raw.natAbs + 1024 := by
  intro least three
  have nonzero : three.raw ≠ 0 := by decide
  have fits : Pixel.InRange ((least.raw * 1024).tdiv three.raw) := by decide
  obtain ⟨quotient, found, raw, -, near⟩ := (products_undo_quotients least three).1 nonzero fits
  have value : quotient.raw = -715827882 := raw.trans (by decide)
  refine ⟨nonzero, fits, quotient, found, value, ?_, near⟩
  rw [raw_mul, value]
  decide

end Factor

end FlexLayout
