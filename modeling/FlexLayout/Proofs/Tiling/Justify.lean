/-
# FlexLayout.Proofs.Tiling.Justify -- free space is used up

The free space of a line goes before, between and after its items.  `Spacing.spread`
is what `Spacing.justify` puts between them and `Spacing.rest` what it leaves after the
last one; with the leading offset they are all of the free space (`justify_total`).
Under some modes nothing is left at the end (`rest_of_flush`), under others as much as
at the start, up to a pixel that does not divide (`rest_of_even`).

Free space that goes to `auto` margins is used up as well (`Pixel.sum_shares`).
-/
import FlexLayout.Spacing

namespace FlexLayout

set_option autoImplicit false

namespace Spacing

/-- Pixels between `count` items: the same between all neighbours, and one more
between the first `spare` pairs. -/
def spread (spacing : Spacing) (count : Nat) : Int :=
  ((count - 1 : Nat) : Int) * spacing.between + min spacing.spare ((count - 1 : Nat) : Int)

structure Nonneg (spacing : Spacing) : Prop where
  lead : 0 ≤ spacing.lead
  between : 0 ≤ spacing.between
  spare : 0 ≤ spacing.spare

theorem nonneg_default : Nonneg {} := ⟨Int.le_refl 0, Int.le_refl 0, Int.le_refl 0⟩

theorem spread_default (count : Nat) : spread {} count = 0 := by
  simp only [spread]
  omega

variable {free : Int} {count : Nat}

theorem ofCount_eq (few : count < 2147483648) : Pixel.ofCount count = count :=
  Pixel.ofCount_of_lt few

/-- A quotient and its remainder, for space that is not negative. -/
theorem tdiv_tmod (slots : Int) (nonneg : 0 ≤ free) (positive : 0 < slots) :
    0 ≤ free.tdiv slots ∧ 0 ≤ free.tmod slots ∧ free.tmod slots < slots ∧
      slots * free.tdiv slots + free.tmod slots = free :=
  ⟨Int.tdiv_nonneg nonneg (Int.le_of_lt positive), Int.tmod_nonneg _ nonneg,
    Int.tmod_lt_of_pos _ positive, Int.mul_tdiv_add_tmod free slots⟩

theorem justify_nonneg (mode : Justify) (nonneg : 0 ≤ free) (few : count < 2147483648) :
    Nonneg (justify mode free count) := by
  simp only [justify]
  rw [ofCount_eq few]
  cases mode with
  | flexStart => exact nonneg_default
  | flexEnd => exact ⟨nonneg, Int.le_refl 0, Int.le_refl 0⟩
  | center =>
      refine ⟨?_, Int.le_refl 0, Int.le_refl 0⟩
      have := tdiv_tmod 2 nonneg (by decide)
      dsimp only
      omega
  | spaceBetween =>
      dsimp only
      split
      · rename_i more
        obtain ⟨share, left, -, -⟩ := tdiv_tmod ((count : Int) - 1) nonneg (by omega)
        exact ⟨Int.le_refl 0, share, left⟩
      · exact nonneg_default
  | spaceAround =>
      dsimp only
      split
      · rename_i some
        obtain ⟨share, left, -, -⟩ := tdiv_tmod count nonneg some
        have half := tdiv_tmod 2 share (by decide)
        exact ⟨by dsimp only; omega, share, left⟩
      · exact nonneg_default
  | spaceEvenly =>
      obtain ⟨share, left, -, -⟩ := tdiv_tmod ((count : Int) + 1) nonneg (by omega)
      simp only [Pixel.bonus]
      refine ⟨?_, share, ?_⟩ <;> dsimp only <;> split <;> omega

/-- Without free space all modes are the same. -/
theorem justify_zero (mode : Justify) (count : Nat) : justify mode 0 count = {} := by
  simp only [justify]
  cases mode <;> simp [Pixel.bonus]

/-- What justified space leaves after the last item. -/
def rest (mode : Justify) (free : Int) (count : Nat) : Int :=
  match mode with
  | .flexStart => free
  | .flexEnd => 0
  | .center => free.tdiv 2
  | .spaceBetween => if 1 < count then 0 else free
  | .spaceAround => (free.tdiv count).tdiv 2
  | .spaceEvenly => free.tdiv (count + 1)

/-- All of a share between `count` items, and all of the pixels that are left. -/
theorem spread_eq {spacing : Spacing} (left : Int) (some : 0 < count)
    (spare : spacing.spare = left) (most : left ≤ (count : Int) - 1) :
    spacing.spread count = count * spacing.between - spacing.between + left := by
  simp only [spread]
  rw [spare, show ((count - 1 : Nat) : Int) = (count : Int) - 1 by omega, Int.sub_mul, Int.one_mul]
  omega

/-- **Justified free space is used up.** -/
theorem justify_total (mode : Justify) (nonneg : 0 ≤ free) (some : 0 < count)
    (few : count < 2147483648) :
    (justify mode free count).lead + (justify mode free count).spread count + rest mode free count =
      free := by
  simp only [justify, rest]
  rw [ofCount_eq few]
  cases mode with
  | flexStart => simp [spread_default]
  | flexEnd =>
      rw [spread_eq 0 some rfl (by omega)]
      simp
  | center =>
      rw [spread_eq 0 some rfl (by omega)]
      simp
  | spaceBetween =>
      dsimp only
      by_cases more : 1 < count
      · obtain ⟨-, -, less, whole⟩ := tdiv_tmod ((count : Int) - 1) nonneg (by omega)
        rw [if_pos (by omega), if_pos more, spread_eq _ some rfl (by dsimp only; omega)]
        dsimp only
        rw [Int.sub_mul, Int.one_mul] at whole
        omega
      · rw [if_neg (by omega), if_neg more, spread_default]
        simp
  | spaceAround =>
      dsimp only
      have positive : (0 : Int) < count := by omega
      obtain ⟨-, -, less, whole⟩ := tdiv_tmod count nonneg positive
      rw [if_pos positive, spread_eq _ some rfl (by dsimp only; omega)]
      dsimp only
      omega
  | spaceEvenly =>
      dsimp only
      obtain ⟨-, left, less, whole⟩ := tdiv_tmod ((count : Int) + 1) nonneg (by omega)
      rw [Int.add_mul, Int.one_mul] at whole
      have bounds : Pixel.bonus (free.tmod ((count : Int) + 1)) = 0 ∧
          free.tmod ((count : Int) + 1) = 0 ∨ Pixel.bonus (free.tmod ((count : Int) + 1)) = 1 := by
        simp only [Pixel.bonus]
        split <;> omega
      rw [spread_eq _ some rfl (by dsimp only; omega)]
      dsimp only
      omega

/-- Some of the space is handed out, and some may be left. -/
theorem rest_nonneg (mode : Justify) (nonneg : 0 ≤ free) (some : 0 < count) :
    0 ≤ rest mode free count := by
  simp only [rest]
  cases mode with
  | flexStart => exact nonneg
  | flexEnd => exact Int.le_refl 0
  | center => exact Int.tdiv_nonneg nonneg (by decide)
  | spaceBetween =>
      dsimp only
      split
      · exact Int.le_refl 0
      · exact nonneg
  | spaceAround =>
      exact Int.tdiv_nonneg (Int.tdiv_nonneg nonneg (by omega)) (by decide)
  | spaceEvenly => exact Int.tdiv_nonneg nonneg (by omega)

theorem rest_of_flush {mode : Justify}
    (flush : mode = .flexEnd ∨ mode = .spaceBetween ∧ 1 < count) : rest mode free count = 0 := by
  rcases flush with rfl | ⟨rfl, more⟩
  · rfl
  · exact if_pos more

/-- What is left after the last item is as much as before the first one, up to a
pixel. -/
theorem rest_of_even {mode : Justify} (nonneg : 0 ≤ free) (some : 0 < count)
    (few : count < 2147483648)
    (even : mode = .center ∨ mode = .spaceAround ∨ mode = .spaceEvenly) :
    rest mode free count ≤ (justify mode free count).lead ∧
      (justify mode free count).lead ≤ rest mode free count + 1 := by
  simp only [justify, rest]
  rw [ofCount_eq few]
  rcases even with rfl | rfl | rfl
  · have := tdiv_tmod 2 nonneg (by decide)
    dsimp only
    omega
  · have positive : (0 : Int) < count := by omega
    have half := tdiv_tmod 2 (tdiv_tmod count nonneg positive).1 (by decide)
    dsimp only
    rw [if_pos positive]
    dsimp only
    omega
  · dsimp only
    simp only [Pixel.bonus]
    split <;> omega

end Spacing

/-! ## Free space for margins -/

namespace Pixel

theorem bonus_eq (remainder : Int) : bonus remainder = min 1 (max 0 remainder) := by
  simp only [bonus]
  split <;> omega

/-- Shares of `amount` for `slots` takers are used up: one more pixel goes to each of
the first `left`. -/
theorem sum_shares (share left : Int) (nonneg : 0 ≤ left) (slots : Nat) :
    ((List.range slots).map fun slot : Nat => share + bonus (left - (slot : Int))).sum =
      slots * share + min left slots := by
  induction slots with
  | zero => simp [Int.min_eq_right nonneg]
  | succ slots ih =>
      rw [List.range_succ, List.map_append, List.sum_append, ih, List.map_singleton,
        List.sum_singleton, bonus_eq, Int.natCast_succ, Int.add_mul, Int.one_mul]
      omega

end Pixel

end FlexLayout
