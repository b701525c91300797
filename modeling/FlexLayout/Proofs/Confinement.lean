/-
# FlexLayout.Proofs.Confinement -- how far a growing line can miss its room

A pass over a growing line hands out no more than is free, so what its items are given fits the
room.  Raising items to their minimum then takes up more, and the next pass hands out the less
that is left, and so it goes on.

But where factors sum to a fraction, that fraction of the space can come to less than a pixel,
and a pass that has nothing to hand out leaves the targets of the pass before.  The pixels that
the open items had before others were raised are not taken back, and the line ends larger than
the available size (`flex_overfills_room`).

Items that are left open there each stand for less than a pixel (`Item.sliver`), and such an item
was never given more than one.  So the line is too large by fewer pixels than it has such items
(`flex_within_room`), and it is never too large if no item that can grow was raised by its
minimum.
-/
import FlexLayout.Proofs.Flexing.Onward
import FlexLayout.Proofs.Flexing.Ranged

namespace FlexLayout

set_option autoImplicit false

/-- Less than a pixel of the amount is dealt out as one pixel at most. -/
theorem Share.Sound.next_le_one {share : Share} (sound : share.Sound) (total : 0 < share.total)
    {claim : Int} (nonneg : 0 ≤ claim) (small : share.amount * claim < share.total) :
    (share.next claim).1 ≤ 1 := by
  have start := Int.mul_nonneg sound.amount sound.start
  have reached : (share.amount * (share.weight + claim)).tdiv share.total <
      (share.amount * share.weight).tdiv share.total + 2 := by
    rw [Int.tdiv_eq_ediv_of_nonneg start,
      Int.tdiv_eq_ediv_of_nonneg (Int.mul_nonneg sound.amount (Int.add_nonneg sound.start nonneg))]
    refine Int.ediv_lt_of_lt_mul total ?_
    have whole := Int.lt_ediv_add_one_mul_self (share.amount * share.weight) total
    have split := Int.mul_add share.amount share.weight claim
    have next := Int.add_mul (share.amount * share.weight / share.total + 1) 1 share.total
    rw [show share.amount * share.weight / share.total + 2 =
      share.amount * share.weight / share.total + 1 + 1 by omega]
    omega
  have most := reached_mono sound.amount total
    (Int.min_le_left (share.weight + max claim 0) share.total)
  rw [(sound.next total claim).1, sound.dealt]
  rw [show max claim 0 = claim by omega] at most ⊢
  simp only [Share.reached] at most ⊢
  omega

namespace Item

/-- The item's grow factor stands for less than a pixel of this space. -/
def sliver (space : Int) (item : Item) : Bool := space * item.grow.raw < 1024

def slight (space : Int) (item : Item) : Int :=
  if !item.frozen && item.sliver space then 1 else 0

theorem slight_open {space : Int} {item : Item} (open_ : item.frozen = false)
    (sliver : item.sliver space = true) : item.slight space = 1 := by
  simp [slight, open_, sliver]

theorem slight_nonneg (space : Int) (item : Item) : 0 ≤ item.slight space := by
  rw [slight]
  split <;> decide

theorem Advancing.claim_le {total : Int} {item after : Item} (advances : item.Advancing true)
    (lands : item.Lands total after) : item.claim ≤ after.claim := by
  cases lands with
  | frozen => exact Int.le_refl _
  | @held open_ violation freeze =>
      have base : item.base ≤ item.hypothetical := (advances.open_ open_).2.2.1
      have held : item.hypothetical ≤ item.hold item.target := advances.onward_hold open_
      rw [show item.claim = item.base from if_neg (by simp [open_])]
      cases freeze with
      | true => exact Int.le_trans base held
      | false => exact Int.le_refl item.base

theorem Lands.slight_le {total : Int} {item after : Item} (lands : item.Lands total after)
    (space : Int) : after.slight space ≤ item.slight space := by
  cases lands with
  | frozen => exact Int.le_refl _
  | @held open_ violation freeze =>
      cases freeze with
      | true => exact item.slight_nonneg space
      | false =>
          have same : item.slight space = { item with frozen := false }.slight space := by
            simp [slight, open_, sliver]
          rw [same]
          exact Int.le_refl _

end Item

namespace Line

variable {space room count : Int} {line : Line} {items mid : List Item}

/-! ## What a pass hands out -/

/-- A pass hands out the fraction of the initial space that the factors sum to, or less. -/
theorem passSpace_le (begins : 0 ≤ space) (factors : 0 ≤ factorSum true items)
    (free : 0 ≤ freeSpace room items) (limit : freeSpace room items ≤ space)
    (range : passSpace true space room items ≤ 2147483647) :
    passSpace true space room items * 1024 ≤ space * factorSum true items ∨
      1024 ≤ factorSum true items ∧ passSpace true space room items ≤ space := by
  simp only [passSpace] at range ⊢
  split
  · rename_i fraction
    rw [if_pos fraction] at range
    left
    have nonneg := Int.mul_nonneg begins factors
    generalize space * factorSum true items = product at nonneg range ⊢
    rw [Int.tdiv_eq_ediv_of_nonneg nonneg] at range ⊢
    by_cases inRange : Pixel.InRange (product / 1024)
    · rw [Pixel.fit?_of_inRange inRange, Option.getD_some]
      split <;> omega
    · rw [Pixel.fit?, if_neg inRange, Option.getD_none, if_neg (by omega)] at range ⊢
      simp only [Pixel.InRange] at inRange
      omega
  · exact .inr ⟨by omega, limit⟩

/-- What a pass hands out leaves less than a pixel for an item that stands for less. -/
theorem passSpace_mul_lt (begins : 0 ≤ space) (factors : 0 < factorSum true items)
    (free : 0 ≤ freeSpace room items) (limit : freeSpace room items ≤ space)
    (range : passSpace true space room items ≤ 2147483647) {factor : Int} (nonneg : 0 ≤ factor)
    (sliver : space * factor < 1024) :
    passSpace true space room items * factor < factorSum true items := by
  rcases passSpace_le begins (Int.le_of_lt factors) free limit range with part | ⟨whole, within⟩
  · have scaled : passSpace true space room items * factor * 1024 < factorSum true items * 1024 :=
      calc passSpace true space room items * factor * 1024
          = passSpace true space room items * 1024 * factor := Int.mul_right_comm _ _ _
        _ ≤ space * factorSum true items * factor := Int.mul_le_mul_of_nonneg_right part nonneg
        _ = space * factor * factorSum true items := Int.mul_right_comm _ _ _
        _ < 1024 * factorSum true items := Int.mul_lt_mul_of_pos_right sliver factors
        _ = factorSum true items * 1024 := Int.mul_comm _ _
    omega
  · calc passSpace true space room items * factor
        ≤ space * factor := Int.mul_le_mul_of_nonneg_right within nonneg
      _ < 1024 := sliver
      _ ≤ factorSum true items := whole

/-- A pass that hands out nothing of a free space has only slivers before it. -/
theorem mul_factorSum_lt (factors : 0 ≤ factorSum true items) (free : 0 < freeSpace room items)
    (limit : freeSpace room items ≤ space) (nothing : passSpace true space room items = 0) :
    space * factorSum true items < 1024 := by
  simp only [passSpace] at nothing
  have nonneg := Int.mul_nonneg (show 0 ≤ space by omega) factors
  generalize space * factorSum true items = product at nonneg nothing ⊢
  rw [Int.tdiv_eq_ediv_of_nonneg nonneg] at nothing
  split at nothing
  · by_cases inRange : Pixel.InRange (product / 1024)
    · rw [Pixel.fit?_of_inRange inRange, Option.getD_some] at nothing
      split at nothing <;> omega
    · rw [Pixel.fit?, if_neg inRange, Option.getD_none] at nothing
      split at nothing <;> omega
  · omega

/-! ## One pass -/

/-- What bounds the targets that a growing line can be left with. -/
structure Confined (space room count : Int) (items : List Item) : Prop where
  /-- No more becomes free than there was in the beginning. -/
  limit : room - sumInFlow Item.claim items ≤ space
  /-- Less than a pixel never became more than one. -/
  given : ∀ item ∈ items, item.frozen = false → item.sliver space = true →
    item.target ≤ item.hypothetical + 1
  few : sumInFlow (Item.slight space) items ≤ count
  most : sumInFlow Item.sure items ≤ room

/-- An item that stands for less than a pixel is handed one at most. -/
theorem handOut_le {free : Int} (fit : ∀ item ∈ items, item.Fit)
    (weight : ∀ item ∈ items, 0 ≤ item.grow.raw) (range : 0 ≤ free ∧ free ≤ 2147483647)
    (factors : 0 < factorSum true items)
    (small : ∀ item ∈ items, item.sliver space = true →
      free * item.grow.raw < factorSum true items) :
    ∀ after ∈ handOut true (shareOf true free items) items,
      after.frozen = false → after.sliver space = true → after.target ≤ after.base + 1 := by
  have dealt : List.Forall₂ _ items (handOut true (shareOf true free items) items) :=
    Share.forall₂_deal
      (fun share => share.Sound ∧ share.amount = free ∧ share.total = factorSum true items)
      (fun claim share => 0 ≤ claim → free * claim < factorSum true items → share ≤ 1)
      (fun share claim ⟨sound, amount, total⟩ => by
        have positive : 0 < share.total := by omega
        obtain ⟨-, -, next, rest⟩ := sound.next positive claim
        refine ⟨fun nonneg less => ?_, rest, ?_, ?_⟩
        · exact sound.next_le_one positive nonneg (by rwa [amount, total])
        · rw [next]
          exact amount
        · rw [next]
          exact total)
      ⟨Share.sound_start _ range.1 range.2, rfl, rfl⟩ items
  intro after member open_ sliver
  obtain ⟨item, among, ⟨frozen, rfl⟩ | ⟨-, share, least, rfl⟩⟩ := exists_of_mem_right dealt member
  · simp [open_] at frozen
  · have base := (fit item among).base
    have share_le : share ≤ 1 := least (weight item among) (small item among sliver)
    simp only [Pixel.InRange] at base
    show Pixel.add item.base share ≤ item.base + 1
    simp only [Pixel.add, Pixel.saturate]
    omega

/-- What is handed out leaves a confined line confined. -/
theorem Confined.moved (confined : Confined space room count items)
    (moved : List.Forall₂ (Item.Moved true) items mid)
    (given : ∀ item ∈ mid, item.frozen = false → item.sliver space = true →
      item.target ≤ item.hypothetical + 1) : Confined space room count mid := by
  have claim : sumInFlow Item.claim items = sumInFlow Item.claim mid :=
    sumInFlow_congr moved (fun _ _ step => step.outOfFlow_eq) fun _ _ step _ => step.claim_eq.symm
  have sure : sumInFlow Item.sure items = sumInFlow Item.sure mid :=
    sumInFlow_congr moved (fun _ _ step => step.outOfFlow_eq) fun _ _ step _ => step.sure_eq.symm
  have slight : sumInFlow (Item.slight space) items = sumInFlow (Item.slight space) mid :=
    sumInFlow_congr moved (fun _ _ step => step.outOfFlow_eq) fun item after step _ => by
      cases step <;> rfl
  exact ⟨claim ▸ confined.limit, given, slight ▸ confined.few, sure ▸ confined.most⟩

/-- Holding the targets leaves a confined line confined, if it raises them or they fit. -/
theorem Confined.settled (confined : Confined space room count mid)
    (advanced : Advanced true room mid)
    (adjusted : totalViolation mid = sumInFlow Item.held mid - sumInFlow Item.target mid)
    (fits : 0 < totalViolation mid ∨ sumInFlow Item.target mid ≤ room) (line : Line) :
    Confined space room count (Line.settled (line, mid)).2 := by
  have lands := settled_lands line mid
  generalize (Line.settled (line, mid)).2 = after at lands ⊢
  generalize totalViolation mid = total at lands adjusted fits
  have lands' := (List.forall₂_and_left _ _).2 ⟨advanced.each, lands⟩
  have limit := confined.limit
  have few := confined.few
  have most := confined.most
  refine ⟨?_, fun last member open_ sliver => ?_, ?_, ?_⟩
  · have claims : sumInFlow Item.claim mid ≤ sumInFlow Item.claim after :=
      sumInFlow_le lands' (fun _ _ both => both.2.outOfFlow_eq) fun _ _ both _ =>
        both.1.claim_le both.2
    omega
  · obtain ⟨item, among, advances, step⟩ := exists_of_mem_right lands' member
    cases step with
    | frozen done => simp [done] at open_
    | held was =>
        have given := confined.given item among was sliver
        have held := item.hold_le_max item.target
        have least := advances.fit.minMain_le
        show item.hold item.target ≤ item.hypothetical + 1
        omega
  · exact Int.le_trans (sumInFlow_le lands'.flip (fun _ _ both => both.2.outOfFlow_eq.symm)
      fun _ _ both _ => both.2.slight_le space) few
  · rcases Int.lt_or_le 0 total with rises | falls
    · rw [← sumInFlow_congr lands' (fun _ _ both => both.2.outOfFlow_eq) fun _ _ both _ =>
        (both.1.sure_eq both.2 (by omega) (Int.le_of_lt rises)).symm]
      exact most
    · have sure : sumInFlow Item.sure after ≤ sumInFlow Item.held mid :=
        sumInFlow_le lands'.flip (fun _ _ both => both.2.outOfFlow_eq.symm)
          fun _ _ both _ => both.1.onward_held both.2
      omega

/-- What a pass hands out leaves a confined line confined. -/
theorem Confined.handed (confined : Confined space room count items)
    (state : Advancing true room items) (some : ∃ item ∈ items, item.frozen = false)
    (begins : 0 ≤ space) (unclipped : UnclippedPass true space room line items)
    (hands : HandsOut true space room items) :
    Confined space room count
      (handOut true (shareOf true (passSpace true space room items) items) items) := by
  obtain ⟨free, given, -⟩ := state.onward_space some begins unclipped.free
  obtain ⟨moved, handed, -⟩ := state.handed some begins unclipped hands
  have limit : freeSpace room items ≤ space := unclipped.free ▸ confined.limit
  have weight : ∀ item ∈ items, 0 ≤ item.grow.raw :=
    fun item member => (state.each item member).weight
  have factors := state.factorSum_pos some
  have range : passSpace true space room items ≤ 2147483647 := unclipped.space.2
  refine confined.moved moved fun item member open_ sliver => ?_
  have base : item.base ≤ item.hypothetical := ((handed.each item member).open_ open_).2.2.1
  have share := handOut_le (fun item member => (state.each item member).fit) weight
    ⟨given, range⟩ factors (fun item member sliver => passSpace_mul_lt begins factors
      (Int.le_of_lt free) limit range (weight item member) (of_decide_eq_true sliver))
    item member open_ sliver
  omega

/-- A pass that has nothing to hand out of some space finds slivers only. -/
theorem sliver_of_nothing (state : Advancing true room items) (free : 0 < freeSpace room items)
    (limit : freeSpace room items ≤ space) (nothing : passSpace true space room items = 0) :
    ∀ item ∈ items, item.frozen = false → item.sliver space = true := by
  intro item member open_
  have factor := le_factorSum true
    (fun item member open_ => ((state.each item member).open_ open_).1)
    (fun item member => (state.each item member).weight) member open_
  have positive := ((state.each item member).open_ open_).2.1
  have less := mul_factorSum_lt (by omega) free limit nothing
  have part : space * item.grow.raw ≤ space * factorSum true items :=
    Int.mul_le_mul_of_nonneg_left factor (by omega)
  exact decide_eq_true (Int.lt_of_le_of_lt part less)

/-- If only slivers are left open, their targets are fewer pixels beyond the room than there
are of them. -/
theorem Confined.held_le (confined : Confined space room count items)
    (state : Advancing true room items) (some : ∃ item ∈ items, item.frozen = false)
    (slivers : ∀ item ∈ items, item.frozen = false → item.sliver space = true) :
    sumInFlow Item.held items ≤ room + max 0 (count - 1) := by
  have beyond : sumInFlow (fun item => item.held - item.sure) items ≤
      sumInFlow (Item.slight space) items := by
    refine sumInFlow_mono fun item member _ => ?_
    cases done : item.frozen with
    | true =>
        rw [held_frozen done, show item.sure = item.target from if_pos done, Int.sub_self]
        exact item.slight_nonneg space
    | false =>
        have given := confined.given item member done (slivers item member done)
        have held := item.hold_le_max item.target
        have least := (state.each item member).fit.minMain_le
        rw [held_open done, show item.sure = item.hypothetical from if_neg (by simp [done]),
          Item.slight_open done (slivers item member done)]
        omega
  rw [sumInFlow_sub] at beyond
  have less := of_decide_eq_true (state.side some)
  have few := confined.few
  omega

/-- **A pass freezes an item and leaves the line confined, or ends it** with fewer pixels too
many than there are items that stand for less than one. -/
theorem Confined.flexPass (confined : Confined space room count items)
    (state : Advancing true room items) (tallied : Tallied line items)
    (some : ∃ item ∈ items, item.frozen = false) (begins : 0 ≤ space)
    (unclipped : UnclippedPass true space room line items) :
    let next := Line.flexPass true space room line items
    line.frozen < next.1.frozen ∧ (Advancing true room next.2 ∧ Confined space room count next.2) ∨
      sumInFlow Item.target next.2 ≤ room + max 0 (count - 1) ∧
        (next.1.frozen = line.frozen ∨ ∀ item ∈ next.2, item.frozen = true) := by
  have next := state.flexPass tallied some begins unclipped
  obtain ⟨free, given, within⟩ := state.onward_space some begins unclipped.free
  rw [if_pos rfl] at free
  have limit : freeSpace room items ≤ space := unclipped.free ▸ confined.limit
  have adjusted := unclipped.adjusted
  have stays := frozen_le_flexPass true space room line items
  rw [flexPass_eq] at next stays ⊢
  rcases dealt_cases true (passSpace true space room items) line items with
    ⟨nothing, same⟩ | ⟨gives, weighty, same⟩ | ⟨-, other, -⟩
  · obtain ⟨resting, reach⟩ := state.resting
    rw [same] at adjusted next stays ⊢
    dsimp only at adjusted
    have raised : 0 ≤ totalViolation items := by
      have reach : sumInFlow Item.target items ≤ sumInFlow Item.held items := reach
      omega
    rcases Int.lt_or_eq_of_le raised with rises | zero
    · have progress := (settled_progress adjusted some line).resolve_right fun torn => by omega
      exact .inl ⟨progress, next, confined.settled resting adjusted (.inl rises) line⟩
    · refine .inr ⟨?_, .inr fun last member => ?_⟩
      · rw [sumInFlow_settled]
        exact confined.held_le state some (sliver_of_nothing state free limit nothing)
      · obtain ⟨item, -, step⟩ := exists_of_mem_right (settled_lands line items) member
        exact step.frozen_of_zero zero.symm
  · obtain ⟨moved, handed, reach⟩ := state.handed some begins unclipped ⟨gives, weighty⟩
    have opens := exists_open moved (fun _ _ step => step.frozen_eq) some
    have confined := confined.handed state some begins unclipped ⟨gives, weighty⟩
    rw [same] at adjusted next stays ⊢
    dsimp only at adjusted stays
    have fits : sumInFlow Item.target (handOut true
      (shareOf true (passSpace true space room items) items) items) ≤ room := reach
    by_cases progress : line.frozen < (Line.settled (line, handOut true
        (shareOf true (passSpace true space room items) items) items)).1.frozen
    · exact .inl ⟨progress, next, confined.settled handed adjusted (.inr fits) line⟩
    · -- Nothing is frozen where the items were held to less than they were handed.
      obtain ⟨falls, -⟩ := (settled_progress adjusted opens line).resolve_left progress
      refine .inr ⟨?_, .inl (by omega)⟩
      rw [sumInFlow_settled]
      omega
  · cases other

/-- A line on which no open item is measured above its base size, and whose items fit. -/
structure Level (room : Int) (items : List Item) : Prop where
  uncut : ∀ item ∈ items, item.frozen = false → item.hypothetical ≤ item.base
  within : sumInFlow Item.target items ≤ room

theorem Level.settled (level : Level room mid) (advanced : Advanced true room mid) (line : Line) :
    Level room (Line.settled (line, mid)).2 := by
  refine ⟨fun last member open_ => ?_, ?_⟩
  · obtain ⟨item, among, step⟩ := exists_of_mem_right (settled_lands line mid) member
    cases step with
    | frozen => exact level.uncut _ among open_
    | held was => exact level.uncut item among was
  · rw [sumInFlow_settled]
    refine Int.le_trans (sumInFlow_mono fun item member _ => ?_) level.within
    cases done : item.frozen with
    | true => exact Int.le_of_eq (held_frozen done)
    | false =>
        obtain ⟨-, -, -, base⟩ := (advanced.each item member).open_ done
        have base : item.base ≤ item.target := base
        have uncut := level.uncut item member done
        have least := (advanced.each item member).fit.minMain_le
        rw [held_open done]
        exact Item.hold_le_of_minMain_le (by omega)

theorem Level.flexPass (level : Level room items) (state : Advancing true room items)
    (some : ∃ item ∈ items, item.frozen = false) (begins : 0 ≤ space)
    (unclipped : UnclippedPass true space room line items) :
    Level room (Line.flexPass true space room line items).2 := by
  rw [flexPass_eq]
  rcases dealt_cases true (passSpace true space room items) line items with
    ⟨-, same⟩ | ⟨gives, weighty, same⟩ | ⟨-, other, -⟩
  · rw [same]
    exact level.settled state.resting.1 line
  · obtain ⟨moved, handed, reach⟩ := state.handed some begins unclipped ⟨gives, weighty⟩
    rw [same]
    refine Level.settled ⟨fun after member open_ => ?_, reach⟩ handed line
    obtain ⟨item, among, step⟩ := exists_of_mem_right moved member
    have hypothetical : after.hypothetical = item.hypothetical :=
      (congrArg Item.hypothetical step.unflexed_eq :)
    have base : after.base = item.base := (congrArg Item.base step.unflexed_eq :)
    rw [hypothetical, base]
    exact level.uncut item among (step.frozen_eq.symm.trans open_)
  · cases other

/-! ## All passes -/

/-- How many items can grow and stand for less than a pixel of the space. -/
def slivers (space : Int) (items : List Item) : Nat :=
  items.countP fun item => !item.outOfFlow && !item.inflexible true && item.sliver space

/-- Those are the open ones when the passes begin. -/
theorem sumInFlow_slight_started (space : Int) (items : List Item) :
    sumInFlow (Item.slight space) (started true items) = slivers space items := by
  induction items with
  | nil => rfl
  | cons item rest ih =>
      have here : (if (item.start true).outOfFlow then 0 else (item.start true).slight space) =
          if !item.outOfFlow && !item.inflexible true && item.sliver space then 1 else 0 := by
        rcases item.start_cases true with ⟨rigid, same⟩ | ⟨inFlow, flexes, same⟩
        · have none : (!item.outOfFlow && !item.inflexible true) = false := by
            rw [← Bool.not_or, rigid]
            rfl
          rw [same, none]
          exact ite_self 0
        · rw [same, inFlow, flexes]
          rfl
      rw [slivers, List.countP_cons, started, List.map_cons, sumInFlow_cons, here]
      rw [started, slivers] at ih
      rw [ih]
      split <;> omega

theorem confined_started (state : Advancing true room (started true items))
    (initial : space = room - sumInFlow Item.claim (started true items))
    (most : sumInFlow Item.hypothetical items ≤ room) :
    Confined space room (slivers space items) (started true items) := by
  refine ⟨Int.le_of_eq initial.symm, fun after member open_ _ => ?_,
    Int.le_of_eq (sumInFlow_slight_started space items), ?_⟩
  · obtain ⟨-, -, base, -⟩ := (state.each after member).open_ open_
    have base : after.base ≤ after.hypothetical := base
    obtain ⟨item, -, rfl⟩ := List.mem_map.1 member
    have target : (item.start true).target = (item.start true).base := by
      rw [(Item.start_open open_).2.2]
    omega
  · rwa [sumInFlow_started items (Item.sure_start true)]

section

variable {available : Option Int} {gap : Int}

/-- When the passes are over, the items take fewer pixels beyond the room than there are of
them that stand for less than one. -/
theorem Unclipped.passed_le (unclipped : Unclipped ⟨line, items⟩ available gap)
    (gathered : Gathered gap ⟨line, items⟩) (grows : line.grows available gap = true) :
    sumInFlow Item.target (line.passed items available gap) ≤ line.roomFor available gap +
      max 0 ((slivers (line.initialSpace items available gap) items : Int) - 1) := by
  have asked := of_decide_eq_true ((unclipped.side gathered).trans grows)
  obtain ⟨begins, sign⟩ := unclipped.advancing_started gathered
  have initial := unclipped.initialSpace_eq
  rw [grows] at begins sign initial
  rw [if_pos rfl] at sign
  by_cases some : ∃ item ∈ started true items, item.frozen = false
  · have confined := confined_started begins (initial some) (Int.le_of_lt asked)
    refine unclipped.passed_close grows
      (fun others => Advancing true (line.roomFor available gap) others ∧
        Confined _ (line.roomFor available gap) _ others)
      (· ≤ line.roomFor available gap + max 0 (_ - 1)) ⟨begins, confined⟩ ?_ ?_
    · intro before others tallied opens initial pass inv
      exact inv.2.flexPass inv.1 tallied opens (by omega) pass
    · intro others inv frozen
      have most := inv.2.most
      rw [sumInFlow_sure frozen] at most
      omega
  · -- With no item open, no pass is made.
    refine unclipped.passed_close grows (fun others => others = started true items)
      (· ≤ line.roomFor available gap + max 0 (_ - 1)) rfl ?_ ?_
    · rintro before others - opens - - rfl
      exact absurd opens some
    · rintro others rfl frozen
      rw [← sumInFlow_sure frozen, sumInFlow_started items (Item.sure_start true)]
      omega

theorem level_started (uncut : ∀ item ∈ items, item.outOfFlow = false →
      item.inflexible true = false → item.hypothetical ≤ item.base)
    (most : sumInFlow Item.hypothetical items ≤ room) : Level room (started true items) := by
  refine ⟨List.forall_mem_map.2 fun item member open_ => ?_, ?_⟩
  · obtain ⟨inFlow, flexes, same⟩ := Item.start_open open_
    rw [same]
    exact uncut item member inFlow flexes
  · rw [← sumInFlow_started items (Item.sure_start true)] at most
    refine Int.le_trans (sumInFlow_mono (List.forall_mem_map.2 fun item _ _ => ?_)) most
    rcases item.start_cases true with ⟨-, same⟩ | ⟨-, flexes, same⟩
    · rw [same]
      exact Int.le_refl item.hypothetical
    · rw [same]
      exact (Item.onward_of_flexes flexes).2

/-- If no item that can grow was raised by its minimum, they take no more than the room. -/
theorem Unclipped.passed_le_of_uncut (unclipped : Unclipped ⟨line, items⟩ available gap)
    (gathered : Gathered gap ⟨line, items⟩) (grows : line.grows available gap = true)
    (uncut : ∀ item ∈ items, item.outOfFlow = false → item.inflexible true = false →
      item.hypothetical ≤ item.base) :
    sumInFlow Item.target (line.passed items available gap) ≤ line.roomFor available gap := by
  have asked := of_decide_eq_true ((unclipped.side gathered).trans grows)
  obtain ⟨begins, sign⟩ := unclipped.advancing_started gathered
  rw [grows] at begins sign
  rw [if_pos rfl] at sign
  have level := level_started uncut (Int.le_of_lt asked)
  obtain ⟨-, -, ends⟩ := unclipped.rounds_keep grows
    (fun others => Advancing true (line.roomFor available gap) others ∧
      Level (line.roomFor available gap) others) ⟨begins, level⟩
    fun before others tallied some initial pass state =>
      have nonneg : 0 ≤ line.initialSpace items available gap := by omega
      ⟨state.1.flexPass tallied some nonneg pass, state.2.flexPass state.1 some nonneg pass⟩
  exact ends.within

end

/-- **A growing line is too large by fewer pixels than there are items that stand for less than
one**, and it is never too large if no item that can grow was raised by its minimum. -/
theorem flex_within_room {filled : FilledLine} {gap size : Int} (gathered : Gathered gap filled)
    (unclipped : Unclipped filled (some size) gap) (smaller : filled.line.main < size) :
    let initial := filled.line.initialSpace filled.items (some size) gap
    let flexed := filled.line.flex filled.items (some size) gap
    flexed.1.used ≤ size + ((slivers initial filled.items - 1 : Nat) : Int) ∧
      ((∀ item ∈ filled.items, item.outOfFlow = false → item.inflexible true = false →
        item.hypothetical ≤ item.base) → flexed.1.used ≤ size) := by
  obtain ⟨line, items⟩ := filled
  dsimp only at smaller ⊢
  have grows : line.grows (some size) gap = true := by
    rw [unclipped.grows_eq]
    exact decide_eq_true smaller
  have room : line.roomFor (some size) gap = size - Pixel.gapsBetween line.inFlow gap :=
    unclipped.room
  have used : (line.flex items (some size) gap).1.used =
      sumInFlow Item.target (line.flex items (some size) gap).2 +
        Pixel.gapsBetween line.inFlow gap := unclipped.used
  rw [sumInFlow_flex] at used
  refine ⟨?_, fun uncut => ?_⟩
  · have most := unclipped.passed_le gathered grows
    omega
  · have most := unclipped.passed_le_of_uncut gathered grows uncut
    omega

/-- Three items stand for less than a pixel each and are given one, the others are raised to
their minimum: two pixels are too many. -/
theorem flex_within_room_sharp :
    let items : List Item :=
      [{ grow := Factor.ofRaw 311, minMain := 3, hypothetical := 3 }, { grow := Factor.ofRaw 34 },
        { grow := Factor.ofRaw 299, minMain := 3, hypothetical := 3 }, { grow := Factor.ofRaw 34 },
        { grow := Factor.ofRaw 288, minMain := 3, hypothetical := 3 }, { grow := Factor.ofRaw 34 }]
    let filled : FilledLine := ⟨{ count := 6, inFlow := 6, main := 9 }, items⟩
    let flexed := filled.line.flex items (some 10) 0
    Gathered 0 filled ∧ Unclipped filled (some 10) 0 ∧ filled.line.main < 10 ∧
      slivers (filled.line.initialSpace items (some 10) 0) items = 3 ∧
      flexed.1.used ≤ 12 ∧ flexed.2.map Item.target = [3, 1, 3, 1, 3, 1] := by
  intro items filled flexed
  have gathered : Gathered 0 filled := by decide
  have unclipped : Unclipped filled (some 10) 0 := Ranged.unclipped (by decide +kernel)
  have count : slivers (filled.line.initialSpace items (some 10) 0) items = 3 := by decide +kernel
  obtain ⟨most, -⟩ := flex_within_room gathered unclipped (by decide)
  rw [count] at most
  exact ⟨gathered, unclipped, by decide, count, most, by decide +kernel⟩

/-- **A growing line can end too large.**  Two items get a pixel each and the others are raised
to their minimum.  One pixel is left, but the two stand for less than one of the ten, so nothing
is handed out and they keep what they have. -/
theorem flex_overfills_room :
    let items : List Item :=
      [{ grow := Factor.ofRaw 505, minMain := 5, hypothetical := 5 }, { grow := Factor.ofRaw 51 },
        { grow := Factor.ofRaw 393, minMain := 4, hypothetical := 4 }, { grow := Factor.ofRaw 51 }]
    let filled : FilledLine := ⟨{ count := 4, inFlow := 4, main := 9 }, items⟩
    let flexed := filled.line.flex items (some 10) 0
    Gathered 0 filled ∧ Unclipped filled (some 10) 0 ∧ filled.line.main < 10 ∧
      flexed.2.map Item.target = [5, 1, 4, 1] ∧ flexed.1.used = 11 ∧ ¬flexed.1.used ≤ 10 := by
  decide +kernel

end Line

end FlexLayout
