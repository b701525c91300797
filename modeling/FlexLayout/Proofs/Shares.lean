/-
# FlexLayout.Proofs.Shares -- an amount is divided exactly

What has been handed out after some weights is the part of the amount that belongs to their
sum, cut toward zero, for amounts of either sign (`sum_shares`).  A share is the difference of
two such parts.  It never has the other sign (`Part.next_sign`), and misses the exact part of
its weight by less than a pixel, because two numbers that are cut toward zero on one side of it
are cut the same way (`Part.next_near`).

All of these parts lie between nothing and the amount (`reached_between`).  So a share of an
amount in the range of pixels is in that range (`Part.next_eq`), and where the total fits 128 bits
together with the amount, nothing on the way leaves 128 bits (`Part.nextWide`).  The totals of
lines and of columns that grow late do (`Line.wide_shareOf`, `Slack.wide_growRoom`).
-/
import FlexLayout.Proofs.Factors
import FlexLayout.Proofs.Flexing.Passes
import FlexLayout.Proofs.Flexing.Parts
import FlexLayout.Slack

namespace FlexLayout

set_option autoImplicit false

/-- The signed 128-bit range. -/
def FitsWide (v : Int) : Prop :=
  -170141183460469231731687303715884105728 ≤ v ∧ v ≤ 170141183460469231731687303715884105727

instance (v : Int) : Decidable (FitsWide v) := by unfold FitsWide; infer_instance

namespace Share

variable {share : Share}

def shares (share : Share) (weights : List Int) : List Int :=
  deal (fun _ => true) id (fun _ pixels => pixels) share weights

def after (share : Share) (weights : List Int) : Share :=
  weights.foldl (fun share weight => (share.next weight).2) share

/-- Sum of some weights; those below zero count as none. -/
def weigh (weights : List Int) : Int := (weights.map fun weight => max weight 0).sum

/-- The pixels for the next weight, computed in 128 bits.  A sum of weights stops at the end
of the range; there is no answer if the product or the share leaves it. -/
def nextWide (share : Share) (weight : Int) : Option (Int × Share) :=
  if share.total ≤ 0 then
    some (0, share)
  else
    let sum := min (share.weight + max weight 0) 170141183460469231731687303715884105727
    let taken := min sum share.total
    let product := share.amount * taken
    let pixels := product.tdiv share.total - share.dealt
    if FitsWide product ∧ FitsWide pixels then
      some ((Pixel.fit? pixels).getD 0,
        { share with weight := taken, dealt := product.tdiv share.total })
    else none

theorem weigh_nonneg (weights : List Int) : 0 ≤ weigh weights :=
  List.sum_nonneg (List.forall_mem_map.2 fun weight _ => Int.le_max_right weight 0)

theorem weigh_take {weights : List Int} {i : Nat} {weight : Int} (here : weights[i]? = some weight) :
    weigh (weights.take (i + 1)) = weigh (weights.take i) + max weight 0 := by
  rw [List.take_add_one, here, weigh, List.map_append, List.sum_append]
  simp [weigh]

/-- 128 bits are enough for the total weight and its product with the amount. -/
structure Wide (share : Share) : Prop where
  total : FitsWide share.total
  product : FitsWide (share.amount * share.total)

/-- The total weight of billions of weights, each a factor times a size, is wide enough. -/
theorem wide_start {amount : Int} (pixels : Pixel.InRange amount) {weights : List Int}
    (each : ∀ weight ∈ weights, weight.natAbs ≤ 2147483648 * 2147483648)
    (few : weights.length ≤ 8589934592) :
    ({ amount := amount, total := weights.sum } : Share).Wide := by
  have sum : weights.sum.natAbs ≤ weights.length * (2147483648 * 2147483648) := by
    clear few
    induction weights with
    | nil => exact Nat.zero_le _
    | cons weight rest ih =>
        obtain ⟨here, later⟩ := List.forall_mem_cons.1 each
        have rest_le := ih later
        rw [List.sum_cons, List.length_cons]
        omega
  have most : weights.sum.natAbs ≤ 8589934592 * (2147483648 * 2147483648) :=
    Nat.le_trans sum (Nat.mul_le_mul_right _ few)
  have product : (amount * weights.sum).natAbs ≤
      2147483648 * (8589934592 * (2147483648 * 2147483648)) := by
    simp only [Pixel.InRange] at pixels
    rw [Int.natAbs_mul]
    exact Nat.mul_le_mul (by omega) most
  constructor <;> simp only [FitsWide] <;> omega

/-! ## Parts of an amount -/

namespace Part

/-- **A share is nothing, or on the side of the amount.** -/
theorem next_sign (part : share.Part) (weight : Int) :
    (share.next weight).1 = 0 ∨ (share.next weight).1.sign = share.amount.sign := by
  obtain ⟨above, below⟩ := part.between weight
  rw [(part.next_eq weight).2.1]
  generalize share.reached (min (share.weight + max weight 0) share.total) = reached at above below ⊢
  rcases Int.lt_trichotomy share.amount 0 with negative | zero | positive
  · by_cases same : reached - share.dealt = 0
    · exact .inl same
    · rw [Int.sign_eq_neg_one_of_neg negative]
      exact .inr (Int.sign_eq_neg_one_of_neg (by omega))
  · exact .inl (by omega)
  · by_cases same : reached - share.dealt = 0
    · exact .inl same
    · rw [Int.sign_eq_one_of_pos positive]
      exact .inr (Int.sign_eq_one_of_pos (by omega))

/-- **A share misses the exact part of its weight by less than a pixel**, as long as the
total is not exceeded. -/
theorem next_near (part : share.Part) {weight : Int} (most : share.weight + max weight 0 ≤ share.total) :
    ((share.next weight).1 * share.total - share.amount * max weight 0).natAbs <
      share.total.natAbs := by
  have total := part.total
  have all : min (share.weight + max weight 0) share.total = share.weight + max weight 0 :=
    Int.min_eq_left most
  have before := Int.tdiv_mul_add_tmod (share.amount * share.weight) share.total
  have later := Int.tdiv_mul_add_tmod (share.amount * (share.weight + max weight 0)) share.total
  obtain ⟨small, -, above, below⟩ := tmod_small (show share.total ≠ 0 by omega)
    (share.amount * share.weight)
  obtain ⟨small', -, above', below'⟩ := tmod_small (show share.total ≠ 0 by omega)
    (share.amount * (share.weight + max weight 0))
  -- Both parts are cut on the side of zero that the amount is on.
  have side : (0 ≤ share.amount → 0 ≤ share.amount * share.weight ∧
        0 ≤ share.amount * (share.weight + max weight 0)) ∧
      (share.amount ≤ 0 → share.amount * share.weight ≤ 0 ∧
        share.amount * (share.weight + max weight 0) ≤ 0) := by
    have start := part.start
    have start' : 0 ≤ share.weight + max weight 0 := by omega
    exact ⟨fun nonneg => ⟨Int.mul_nonneg nonneg start, Int.mul_nonneg nonneg start'⟩,
      fun nonpos => ⟨Int.mul_nonpos_of_nonpos_of_nonneg nonpos start,
        Int.mul_nonpos_of_nonpos_of_nonneg nonpos start'⟩⟩
  rw [(part.next_eq weight).2.1, all, part.dealt, Int.sub_mul]
  simp only [reached]
  rw [Int.mul_add] at later small' above' below' side ⊢
  rcases Int.le_total 0 share.amount with nonneg | nonpos
  · have := above (side.1 nonneg).1
    have := above' (side.1 nonneg).2
    omega
  · have := below (side.2 nonpos).1
    have := below' (side.2 nonpos).2
    omega

/-- **128 bits are enough** for a share, if they are for the whole amount times the
total. -/
theorem nextWide (part : share.Part) (wide : share.Wide) (weight : Int) :
    share.nextWide weight = some (share.next weight) := by
  obtain ⟨wide, product⟩ := wide
  have total := part.total
  have start := part.start
  obtain ⟨whole, -, state⟩ := part.next_eq weight
  obtain ⟨above, below⟩ := part.between weight
  have range := part.pixels
  simp only [FitsWide, Pixel.InRange] at wide product range
  have sum : min (min (share.weight + max weight 0) 170141183460469231731687303715884105727)
      share.total = min (share.weight + max weight 0) share.total := by omega
  have fits : FitsWide (share.amount * min (share.weight + max weight 0) share.total) := by
    have taken : 0 ≤ min (share.weight + max weight 0) share.total := by omega
    have most : min (share.weight + max weight 0) share.total ≤ share.total := Int.min_le_right _ _
    generalize min (share.weight + max weight 0) share.total = claim at taken most
    simp only [FitsWide]
    rcases Int.le_total 0 share.amount with nonneg | nonpos
    · have := Int.mul_nonneg nonneg taken
      have := Int.mul_le_mul_of_nonneg_left most nonneg
      omega
    · have := Int.mul_nonpos_of_nonpos_of_nonneg nonpos taken
      have := Int.mul_le_mul_of_nonpos_left nonpos most
      omega
  have fits' : FitsWide
      (share.reached (min (share.weight + max weight 0) share.total) - share.dealt) := by
    simp only [FitsWide]
    omega
  simp only [Share.nextWide]
  rw [if_neg (by omega), sum, if_pos ⟨fits, fits'⟩]
  refine congrArg some (Prod.ext ?_ state.symm)
  exact congrArg (Option.getD · 0) whole

end Part

/-! ## Runs -/

theorem shares_cons (share : Share) (weight : Int) (rest : List Int) :
    share.shares (weight :: rest) =
      (share.next weight).1 :: (share.next weight).2.shares rest := rfl

theorem getElem?_shares (share : Share) (weights : List Int) (i : Nat) :
    (share.shares weights)[i]? =
      weights[i]?.map fun weight => ((share.after (weights.take i)).next weight).1 := by
  induction weights generalizing share i with
  | nil => rfl
  | cons weight rest ih =>
      rw [shares_cons]
      cases i with
      | zero => rfl
      | succ i => exact ih (share.next weight).2 i

theorem take_shares (share : Share) (weights : List Int) (n : Nat) :
    (share.shares weights).take n = share.shares (weights.take n) := by
  induction weights generalizing share n with
  | nil => simp [shares, deal]
  | cons weight rest ih =>
      cases n with
      | zero => rfl
      | succ n =>
          rw [List.take_succ_cons, shares_cons, shares_cons, List.take_succ_cons, ih]

/-- **After some weights** their part of the amount is handed out. -/
theorem Part.after (part : share.Part) (weights : List Int) :
    (share.after weights).Part ∧
      (share.after weights).amount = share.amount ∧
      (share.after weights).total = share.total ∧
      (share.after weights).weight = min (share.weight + weigh weights) share.total ∧
      (share.shares weights).sum = (share.after weights).dealt - share.dealt := by
  induction weights generalizing share with
  | nil =>
      have most := part.most
      refine ⟨part, rfl, rfl, ?_, (Int.sub_self _).symm⟩
      show share.weight = min (share.weight + 0) share.total
      omega
  | cons weight rest ih =>
      obtain ⟨-, share_eq, state⟩ := part.next_eq weight
      obtain ⟨part', amount, total, taken, sum⟩ := ih (part.next weight)
      have others := weigh_nonneg rest
      have weighed : weigh (weight :: rest) = max weight 0 + weigh rest := rfl
      refine ⟨part', ?_, ?_, ?_, ?_⟩
      · exact amount.trans (by rw [state])
      · exact total.trans (by rw [state])
      · refine taken.trans ?_
        rw [state, weighed]
        dsimp only
        omega
      · rw [shares_cons, List.sum_cons, sum, share_eq, state]
        show _ = ((share.next weight).2.after rest).dealt - share.dealt
        rw [state]
        dsimp only
        omega

/-- **What is handed out** is the part of the amount that belongs to the weights. -/
theorem sum_shares {amount total : Int} (pixels : Pixel.InRange amount) (positive : 0 < total)
    (weights : List Int) :
    (({ amount := amount, total := total } : Share).shares weights).sum =
      (amount * min (weigh weights) total).tdiv total := by
  obtain ⟨part, same, same', taken, sum⟩ := (part_start pixels positive).after weights
  rw [sum, part.dealt, taken]
  simp only [reached]
  rw [same, same', Int.zero_add, Int.sub_zero]

/-- Numbers on one side of zero have the magnitude of their sum. -/
theorem sum_natAbs {side : Int} {list : List Int} (same : ∀ v ∈ list, v = 0 ∨ v.sign = side.sign) :
    (list.map Int.natAbs).sum = list.sum.natAbs ∧ (list.sum = 0 ∨ list.sum.sign = side.sign) := by
  induction list with
  | nil => exact ⟨rfl, .inl rfl⟩
  | cons v rest ih =>
      obtain ⟨here, later⟩ := List.forall_mem_cons.1 same
      obtain ⟨sum, signs⟩ := ih later
      rw [List.map_cons, List.sum_cons, List.sum_cons, sum]
      generalize rest.sum = total at signs ⊢
      rcases Int.lt_trichotomy side 0 with negative | rfl | positive
      · rw [Int.sign_eq_neg_one_of_neg negative, Int.sign_eq_neg_one_iff_neg] at *
        omega
      · rw [Int.sign_zero, Int.sign_eq_zero_iff_zero] at *
        omega
      · rw [Int.sign_eq_one_of_pos positive, Int.sign_eq_one_iff_pos] at *
        omega

end Share

/-! ## The amounts that are divided -/

/-- **The totals of a line are wide enough**, for growing and for shrinking. -/
theorem Line.wide_shareOf (growing : Bool) {free : Int} (range : Pixel.InRange free)
    {items : List Item} (bases : ∀ item ∈ items, Pixel.InRange item.base)
    (few : items.length ≤ 8589934592) : (Line.shareOf growing free items).Wide := by
  have factor (factor : Factor) : factor.raw.natAbs ≤ 2147483648 := by
    have fits := factor.inRange
    simp only [Pixel.InRange] at fits
    omega
  cases growing with
  | true =>
      refine Share.wide_start range (fun weight member => ?_) ?_
      · obtain ⟨item, -, rfl⟩ := List.mem_map.1 member
        exact Nat.le_trans (factor item.grow) (by decide)
      · rw [List.length_map]
        exact Nat.le_trans (List.length_filter_le _ _) few
  | false =>
      refine Share.wide_start (Pixel.inRange_saturate _) (fun weight member => ?_) ?_
      · obtain ⟨item, inside, rfl⟩ := List.mem_map.1 member
        have base := bases item (List.mem_of_mem_filter inside)
        simp only [Pixel.InRange] at base
        rw [Item.shrinkWeight, Int.natAbs_mul]
        exact Nat.mul_le_mul (factor item.shrink) (by omega)
      · rw [List.length_map]
        exact Nat.le_trans (List.length_filter_le _ _) few

/-- **The total of a column that grows late** is wide enough. -/
theorem Slack.wide_growRoom {extra : Int} (range : Pixel.InRange extra)
    {entries : List Slack.Entry} (few : entries.length ≤ 8589934592) :
    let factors := (entries.map fun entry => entry.grow.raw).sum
    ({ amount := Slack.growRoom extra factors, total := factors } : Share).Wide := by
  refine Share.wide_start ?_ (fun weight member => ?_) (by rwa [List.length_map])
  · simp only [Slack.growRoom, Pixel.fit?]
    split
    · split
      · assumption
      · exact range
    · exact range
  · obtain ⟨entry, -, rfl⟩ := List.mem_map.1 member
    have fits := entry.grow.inRange
    simp only [Pixel.InRange] at fits
    omega

namespace Share

/-- **An amount is divided exactly.**  After any number of weights, what is handed out is the
part of the amount that belongs to their sum, cut toward zero.  So every share is nothing or
on the side of the amount, together they are no more than the amount, and all of it once the
weights reach the total.  Each share is exact before it is made a pixel size, and misses the
part of its own weight by less than a pixel up to the total.  Where the total and its product
with the amount fit 128 bits, and they do in every line and column, all of it is computed
there. -/
theorem shares_exact {amount total : Int} (pixels : Pixel.InRange amount) (positive : 0 < total)
    (weights : List Int) :
    let share : Share := { amount := amount, total := total }
    (∀ n, ((share.shares weights).take n).sum =
        (amount * min (weigh (weights.take n)) total).tdiv total) ∧
    (∀ one ∈ share.shares weights, one = 0 ∨ one.sign = amount.sign) ∧
    ((share.shares weights).map Int.natAbs).sum ≤ amount.natAbs ∧
    (total ≤ weigh weights → (share.shares weights).sum = amount) ∧
    (∀ i weight one, weights[i]? = some weight → (share.shares weights)[i]? = some one →
      let state := share.after (weights.take i)
      Pixel.fit? ((amount * min (state.weight + max weight 0) total).tdiv total - state.dealt) =
          some one ∧
        (weigh (weights.take (i + 1)) ≤ total →
          ((one * total - amount * max weight 0).natAbs : Int) < total) ∧
        (share.Wide → state.nextWide weight = some (state.next weight))) ∧
    (∀ growing items, items.length ≤ 8589934592 → (∀ item ∈ items, Pixel.InRange item.base) →
      (Line.shareOf growing amount items).Wide) ∧
    (∀ entries : List Slack.Entry, entries.length ≤ 8589934592 →
      let factors := (entries.map fun entry => entry.grow.raw).sum
      ({ amount := Slack.growRoom amount factors, total := factors } : Share).Wide) := by
  intro share
  have begun : share.Part := part_start pixels positive
  have signs : ∀ one ∈ share.shares weights, one = 0 ∨ one.sign = amount.sign := by
    intro one member
    obtain ⟨i, found⟩ := List.getElem?_of_mem member
    rw [getElem?_shares] at found
    obtain ⟨weight, -, rfl⟩ := Option.map_eq_some_iff.1 found
    obtain ⟨part, same, -⟩ := begun.after (weights.take i)
    exact (part.next_sign weight).imp_right fun side => side.trans (congrArg Int.sign same)
  have sum := sum_shares pixels positive weights
  refine ⟨fun n => ?_, signs, ?_, fun all => ?_, fun i weight one here found => ?_,
    fun growing items few bases => Line.wide_shareOf growing pixels bases few,
    fun entries few => Slack.wide_growRoom pixels few⟩
  · rw [take_shares]
    exact sum_shares pixels positive (weights.take n)
  · have between := reached_between begun.total (Int.le_refl 0)
      (show 0 ≤ min (weigh weights) total by have := weigh_nonneg weights; omega)
      (Int.min_le_right _ _)
    have same : (share.shares weights).sum = share.reached (min (weigh weights) total) := sum
    rw [(sum_natAbs signs).1, same]
    obtain ⟨above, below⟩ := between
    change (0 ≤ amount → _ ∧ _ ∧ _ ≤ amount) at above
    change (amount ≤ 0 → amount ≤ _ ∧ _ ∧ _) at below
    omega
  · rw [sum, Int.min_eq_right all, Int.mul_tdiv_cancel _ (by omega)]
  · obtain ⟨part, same, same', taken, -⟩ := begun.after (weights.take i)
    rw [getElem?_shares, here, Option.map_some] at found
    obtain rfl := Option.some.inj found
    intro state
    refine ⟨?_, fun most => ?_, fun wide => part.nextWide ?_ weight⟩
    · have whole := (part.next_eq weight).1
      simp only [reached] at whole
      rwa [same, same'] at whole
    · rw [weigh_take here] at most
      have taken_ : state.weight = weigh (weights.take i) := by
        rw [taken]
        show min (0 + _) total = _
        omega
      have near := part.next_near
        (show state.weight + max weight 0 ≤ state.total by rw [same']; show _ ≤ total; omega)
      rw [same, same'] at near
      change (_ * total - amount * _).natAbs < total.natAbs at near
      change ((_ * total - amount * _).natAbs : Int) < total
      omega
    · exact ⟨same'.symm ▸ wide.total, by rw [same, same']; exact wide.product⟩

/-- Ten pixels taken from three equal weights.  A weight below zero takes none, and what is
beyond the total takes no more than is left. -/
theorem shares_exact_thirds :
    let share : Share := { amount := -10, total := 3072 }
    Pixel.InRange share.amount ∧ 0 < share.total ∧
      share.shares [1024, -5, 1024, 2048] = [-3, 0, -3, -4] ∧
      ((share.shares [1024, -5, 1024, 2048]).take 3).sum = -6 ∧
      (share.shares [1024, -5, 1024, 2048]).sum = -10 ∧
      (-3 * 3072 - -10 * 1024 : Int).natAbs < 3072 := by
  intro share
  have pixels : Pixel.InRange (-10) := by decide
  obtain ⟨taken, -, -, all, each, -⟩ :=
    shares_exact pixels (show (0 : Int) < 3072 by decide) [1024, -5, 1024, 2048]
  refine ⟨pixels, by decide, by decide, (taken 3).trans (by decide), all (by decide), ?_⟩
  exact Int.ofNat_lt.1 ((each 0 1024 (-3) rfl (by decide)).2.1 (by decide))

end Share

end FlexLayout
