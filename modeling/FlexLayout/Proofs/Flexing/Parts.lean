/-
# FlexLayout.Proofs.Flexing.Parts -- parts of an amount that is divided

What has been handed out after some weights is the part of the amount that belongs to their
sum.  Parts of an amount of either sign lie between nothing and the amount, and go from the one
to the other as the weights do (`Share.reached_between`).  So the share for a weight, the
difference of two parts, is in the range of pixels if the amount is (`Share.Part.next_eq`).
-/
import FlexLayout.Proofs.Flexing.Settling

namespace FlexLayout

set_option autoImplicit false

namespace Share

variable {share : Share}

theorem reached_total (total : 0 < share.total) : share.reached share.total = share.amount := by
  simp only [reached]
  exact Int.mul_tdiv_cancel _ (by omega)

/-- **Parts of an amount** grow from nothing to the amount, up or down. -/
theorem reached_between (total : 0 < share.total) {v w : Int} (start : 0 ≤ v) (le : v ≤ w)
    (most : w ≤ share.total) :
    (0 ≤ share.amount →
      0 ≤ share.reached v ∧ share.reached v ≤ share.reached w ∧ share.reached w ≤ share.amount) ∧
    (share.amount ≤ 0 →
      share.amount ≤ share.reached w ∧ share.reached w ≤ share.reached v ∧ share.reached v ≤ 0) := by
  have none : share.reached 0 = 0 := by
    rw [reached, Int.mul_zero, Int.zero_tdiv]
  have all := reached_total total
  constructor
  · intro above
    have first := reached_mono above total start
    have last := reached_mono above total most
    exact ⟨none ▸ first, reached_mono above total le, all ▸ last⟩
  · intro below
    have falls {v w : Int} (le : v ≤ w) : share.reached w ≤ share.reached v :=
      Int.tdiv_le_tdiv total (Int.mul_le_mul_of_nonpos_left below le)
    exact ⟨all ▸ falls most, falls le, none ▸ falls start⟩

/-- An amount in the range of pixels, partly handed out. -/
structure Part (share : Share) : Prop where
  pixels : Pixel.InRange share.amount
  total : 0 < share.total
  start : 0 ≤ share.weight
  most : share.weight ≤ share.total
  dealt : share.dealt = share.reached share.weight

theorem part_start {amount total : Int} (pixels : Pixel.InRange amount) (positive : 0 < total) :
    Part { amount := amount, total := total } where
  pixels := pixels
  total := positive
  start := Int.le_refl 0
  most := Int.le_of_lt positive
  dealt := by simp [reached]

namespace Part

/-- The part that the next weight takes up to lies between what is handed out and the
amount. -/
theorem between (part : share.Part) (weight : Int) :
    (0 ≤ share.amount → 0 ≤ share.dealt ∧
      share.dealt ≤ share.reached (min (share.weight + max weight 0) share.total) ∧
      share.reached (min (share.weight + max weight 0) share.total) ≤ share.amount) ∧
    (share.amount ≤ 0 →
      share.amount ≤ share.reached (min (share.weight + max weight 0) share.total) ∧
      share.reached (min (share.weight + max weight 0) share.total) ≤ share.dealt ∧
      share.dealt ≤ 0) := by
  have most := part.most
  rw [part.dealt]
  exact reached_between part.total part.start (by omega) (by omega)

/-- **The share for a weight** is what is reached with it and was not before, and always in
the range of pixels. -/
theorem next_eq (part : share.Part) (weight : Int) :
    Pixel.fit? (share.reached (min (share.weight + max weight 0) share.total) - share.dealt) =
        some (share.next weight).1 ∧
      (share.next weight).1 =
        share.reached (min (share.weight + max weight 0) share.total) - share.dealt ∧
      (share.next weight).2 =
        { share with
          weight := min (share.weight + max weight 0) share.total
          dealt := share.reached (min (share.weight + max weight 0) share.total) } := by
  have total := part.total
  have range := part.pixels
  obtain ⟨above, below⟩ := part.between weight
  have fits : Pixel.InRange
      (share.reached (min (share.weight + max weight 0) share.total) - share.dealt) := by
    simp only [Pixel.InRange] at range ⊢
    omega
  simp only [Share.next]
  rw [if_neg (by omega), Pixel.fit?_of_inRange fits]
  exact ⟨rfl, rfl, rfl⟩

theorem next (part : share.Part) (weight : Int) : (share.next weight).2.Part := by
  have total := part.total
  have start := part.start
  rw [(part.next_eq weight).2.2]
  exact ⟨part.pixels, total, show 0 ≤ min _ _ by omega, Int.min_le_right _ _, rfl⟩

end Part

end Share

end FlexLayout
