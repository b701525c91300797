/-
# FlexLayout.Proofs.Flexing.Filling -- growing items fill their line

When a line has room to grow into, its items end up filling it, unless none of them can
grow any further (`filled_flex`).

What carries this through the passes (`Line.Rising`): the items still ask for less than
the room, and either whatever is frozen has grown as far as it can, or the items could
still reach the room.  The second begins to hold when a pass freezes items at their
minimum, since then the others were held to less than all of the space.

Every pass has to hand out all of the free space.  It does, if the factors of the items
that are left sum to one at least, which is so when no factor is between zero and one,
or when those of the items that end off their limits do (`Line.Whole`).
-/
import FlexLayout.Proofs.Flexing.Rounds

namespace FlexLayout

set_option autoImplicit false

namespace Item

/-- The item cannot grow, or it has grown as far as it can. -/
def Full (item : Item) : Prop := item.grow.raw = 0 ∨ item.maxMain = some item.target

/-- The item is as small or as large as it can be. -/
def atLimit (item : Item) : Bool := item.target == item.minMain || item.maxMain == some item.target

structure Growing (item : Item) : Prop where
  fit : item.Fit
  weight : 0 ≤ item.grow.raw
  open_ : item.frozen = false →
    item.outOfFlow = false ∧ item.Bounded ∧ 0 < item.grow.raw ∧ item.base ≤ item.hypothetical
  least : item.frozen = true → item.minMain ≤ item.target
  done : item.frozen = true → item.outOfFlow = false → item.Full ∨ item.target = item.minMain

inductive Raised (item : Item) : Item → Prop where
  | frozen (done : item.frozen = true) : Raised item item
  | raised (open_ : item.frozen = false) {size : Int} (more : item.base ≤ size) :
      Raised item { item with target := size }

theorem Raised.unflexed_eq {item after : Item} (raised : item.Raised after) :
    after.unflexed = item.unflexed := by
  cases raised <;> rfl

/-- An item can take this size in the end. -/
structure Reaches (item : Item) (size : Int) : Prop where
  out : item.outOfFlow = true → size = 0
  frozen : item.outOfFlow = false → item.frozen = true → size ≤ item.target
  open_ : item.outOfFlow = false → item.frozen = false → ∀ limit ∈ item.maxMain, size ≤ limit

/-- An item of a line that grows begins as such, and if it is frozen, it cannot grow. -/
theorem Flexible.growing_start {item : Item} (flexible : item.Flexible) :
    (item.start true).Growing ∧
      ((item.start true).frozen = true → (item.start true).outOfFlow = false →
        (item.start true).Full) := by
  obtain ⟨fit, bounded, grow, -⟩ := flexible
  rcases item.start_cases true with ⟨rigid, same⟩ | ⟨inFlow, flexes, same⟩
  · have full : item.outOfFlow = false → item.grow.raw = 0 ∨ item.maxMain = some item.hypothetical := by
      intro inFlow
      simp only [inFlow, inflexible, Factor.isZero, Bool.false_or, if_true, Bool.or_eq_true,
        beq_iff_eq, decide_eq_true_eq] at rigid
      refine rigid.imp id fun less => ?_
      rw [fit.hypothetical] at less ⊢
      obtain ⟨limit, limited, above⟩ : ∃ limit ∈ item.maxMain, limit < item.base := by
        by_contra none
        have kept : item.base ≤ item.hold item.base :=
          le_hold_of_le_limit fun limit limited => Int.not_lt.1 fun above =>
            none ⟨limit, limited, above⟩
        omega
      rw [hold_of_limit_lt (bounded inFlow) limited above]
      exact limited
    rw [same]
    exact ⟨⟨⟨fit.base, fit.hypothetical⟩, grow, fun open_ => Bool.noConfusion open_,
      fun _ => fit.minMain_le, fun _ inFlow => .inl (full inFlow)⟩, fun _ => full⟩
  · simp only [inflexible, Factor.isZero, if_true, Bool.or_eq_false_iff, beq_eq_false_iff_ne,
      decide_eq_false_iff_not] at flexes
    rw [same]
    refine ⟨⟨⟨fit.base, fit.hypothetical⟩, grow, fun _ => ⟨inFlow, bounded inFlow, ?_, ?_⟩,
      fun frozen => Bool.noConfusion frozen, fun frozen => Bool.noConfusion frozen⟩,
      fun frozen => Bool.noConfusion frozen⟩
    · show 0 < item.grow.raw
      omega
    · show item.base ≤ item.hypothetical
      omega

theorem Growing.least_claim {item : Item} (grows : item.Growing) :
    min item.base item.minMain ≤ item.claim := by
  have least := grows.least
  simp only [claim]
  split
  · have := least ‹_›
    omega
  · omega

theorem Growing.claim_le_sure {item : Item} (grows : item.Growing) : item.claim ≤ item.sure := by
  cases done : item.frozen with
  | true => simp [claim, sure, done]
  | false =>
      have := (grows.open_ done).2.2.2
      simpa [claim, sure, done] using this

/-- **What a pass freezes is at its limit.** -/
theorem Growing.settles {total : Int} {item after : Item} (grows : item.Growing)
    (adjusts : total ≠ 0) (settles : item.Settles total after) : after.Growing := by
  obtain ⟨fit, weight, opens, least, done⟩ := grows
  cases settles with
  | frozen => exact ⟨fit, weight, opens, least, done⟩
  | held open_ violation =>
      obtain ⟨inFlow, bounded, positive, base⟩ := opens open_
      refine ⟨⟨fit.base, fit.hypothetical⟩, weight, fun _ => ⟨inFlow, bounded, positive, base⟩,
        fun _ => item.minMain_le_hold item.target, fun stops _ => ?_⟩
      rcases stops_cases stops with zero | ⟨-, below⟩ | ⟨-, limit, limited, above⟩
      · exact absurd zero adjusts
      · exact .inr (hold_of_lt_minMain bounded below)
      · refine .inl (.inr ?_)
        show item.maxMain = some (item.hold item.target)
        rw [hold_of_limit_lt bounded limited above]
        exact limited

/-- Lowered items ask for no more than they are held to. -/
theorem Growing.sure_le_held {total : Int} {item after : Item} (grows : item.Growing)
    (raised : item.frozen = false → item.base ≤ item.target) (settles : item.Settles total after) :
    after.sure ≤ item.held := by
  cases settles with
  | frozen done => simp [sure, held, done]
  | held open_ violation =>
      have base := item.hold_mono (raised open_)
      rw [← grows.fit.hypothetical] at base
      simp only [sure, held, open_]
      split
      · exact Int.le_refl _
      · exact base

/-- Raised items ask for what they asked for before. -/
theorem Growing.sure_of_lifted {total : Int} {item after : Item} (grows : item.Growing)
    (raised : item.frozen = false → item.base ≤ item.target) (lifted : 0 < total)
    (settles : item.Settles total after) : after.sure = item.sure := by
  cases settles with
  | frozen => rfl
  | held open_ violation =>
      obtain ⟨-, bounded, -, -⟩ := grows.open_ open_
      have below := raised open_
      simp only [sure, open_]
      split
      · rename_i stops
        rcases stops_cases stops with zero | ⟨-, below'⟩ | ⟨lowered, -⟩
        · omega
        · rw [hold_of_lt_minMain bounded below', grows.fit.hypothetical]
          exact (hold_of_lt_minMain bounded (Int.lt_of_le_of_lt below below')).symm
        · omega
      · rfl

/-- Lowered items that are frozen have grown as far as they can. -/
theorem Growing.full_of_lowered {total : Int} {item after : Item} (grows : item.Growing)
    (lowered : total < 0) (settles : item.Settles total after)
    (full : item.frozen = true → item.outOfFlow = false → item.Full) :
    after.frozen = true → after.outOfFlow = false → after.Full := by
  cases settles with
  | frozen => exact full
  | held open_ violation =>
      intro stops _
      obtain ⟨-, bounded, -, -⟩ := grows.open_ open_
      rcases stops_cases stops with zero | ⟨raised, -⟩ | ⟨-, limit, limited, above⟩
      · omega
      · omega
      · right
        show item.maxMain = some (item.hold item.target)
        rw [hold_of_limit_lt bounded limited above]
        exact limited

/-- Lowering an item does not take from what it can reach. -/
theorem Growing.reaches_of_lowered {total : Int} {item after : Item} {size : Int}
    (grows : item.Growing) (lowered : total < 0) (settles : item.Settles total after)
    (reaches : item.Reaches size) : after.Reaches size := by
  cases settles with
  | frozen => exact reaches
  | held open_ violation =>
      refine ⟨reaches.out, fun inFlow stops => ?_, fun inFlow _ => reaches.open_ inFlow open_⟩
      obtain ⟨-, bounded, -, -⟩ := grows.open_ open_
      rcases stops_cases stops with zero | ⟨raised, -⟩ | ⟨-, limit, limited, above⟩
      · omega
      · omega
      · show size ≤ item.hold item.target
        rw [hold_of_limit_lt bounded limited above]
        exact reaches.open_ inFlow open_ limit limited

/-- An item can take what it was held to. -/
theorem Growing.reaches_held {total : Int} {item after : Item} (grows : item.Growing)
    (settles : item.Settles total after) :
    after.Reaches (if item.outOfFlow then 0 else item.held) := by
  cases settles with
  | frozen done =>
      refine ⟨fun out => if_pos out, fun inFlow _ => ?_, fun _ open_ => by simp [done] at open_⟩
      simp [inFlow, held, done]
  | held open_ violation =>
      obtain ⟨inFlow, bounded, -, -⟩ := grows.open_ open_
      have size : (if item.outOfFlow then 0 else item.held) = item.hold item.target := by
        simp [inFlow, held, open_]
      rw [size]
      refine ⟨fun out => ?_, fun _ _ => Int.le_refl _, fun _ _ limit limited =>
        hold_le_limit bounded limited item.target⟩
      have : item.outOfFlow = true := out
      simp [inFlow] at this

end Item

namespace Line

/-- The state of a line that grows, between passes. -/
structure Rising (room : Int) (items : List Item) : Prop where
  each : ∀ item ∈ items, item.Growing
  less : sumInFlow Item.sure items < room
  full : (∀ item ∈ items, item.frozen = true → item.outOfFlow = false → item.Full) ∨
    ∃ sizes : List Int, List.Forall₂ Item.Reaches items sizes ∧ room ≤ sizes.sum

/-- The state of a line that grows and whose sums stay in the range. -/
structure Growing (room : Int) (items : List Item) : Prop extends Rising room items where
  range : max 0 room + sumInFlow Item.deficit items ≤ 2147483647

/-- The factors that are left never sum to a fraction. -/
def Whole (final : List Item) : Prop :=
  (∀ item ∈ final, item.outOfFlow = false → item.grow.raw = 0 ∨ 1024 ≤ item.grow.raw) ∨
    1024 ≤ sumInFlow (fun item => if item.atLimit then 0 else item.grow.raw) final

variable {room : Int} {line : Line} {items mid after : List Item}

/-! ## One pass -/

/-- **No pass hands out a fraction only.** -/
theorem Rising.factorSum_le (state : Rising room items) (some : ∃ item ∈ items, item.frozen = false)
    {final : List Item} (stays : List.Forall₂ Item.Stays items final) (whole : Whole final) :
    1024 ≤ factorSum true items := by
  have flow : ∀ item ∈ items, item.frozen = false → item.outOfFlow = false :=
    fun item member open_ => ((state.each item member).open_ open_).1
  rcases whole with each | left
  · obtain ⟨item, member, open_⟩ := some
    obtain ⟨inFlow, -, positive, -⟩ := (state.each item member).open_ open_
    have above : item.grow.raw ≤ factorSum true items :=
      le_factorSum true flow (fun item member => (state.each item member).weight) member open_
    obtain ⟨last, among, same⟩ := exists_of_mem_right stays.flip member
    have grow : last.grow = item.grow := (congrArg Item.grow same.unflexed :)
    have out : last.outOfFlow = item.outOfFlow := (congrArg Item.outOfFlow same.unflexed :)
    have factor := each last among (out.trans inFlow)
    rw [grow] at factor
    exact Int.le_trans (factor.resolve_left (by omega)) above
  · rw [factorSum_eq true flow]
    refine Int.le_trans left (sumInFlow_le ((List.forall₂_and_left _ _).2 ⟨state.each, stays⟩).flip ?_ ?_)
    · rintro last item ⟨-, same⟩
      exact (congrArg Item.outOfFlow same.unflexed :).symm
    · rintro last item ⟨grows, same⟩ out
      have grow : last.grow = item.grow := (congrArg Item.grow same.unflexed :)
      have inFlow : item.outOfFlow = false := (congrArg Item.outOfFlow same.unflexed :).symm.trans out
      cases frozen : item.frozen with
      | false =>
          have weight := grows.weight
          rw [grow, if_neg Bool.false_ne_true]
          split
          · exact weight
          · exact Int.le_refl _
      | true =>
          have target := (same.frozen frozen).2
          have minMain : last.minMain = item.minMain := (congrArg Item.minMain same.unflexed :)
          have maxMain : last.maxMain = item.maxMain := (congrArg Item.maxMain same.unflexed :)
          rw [if_pos rfl, grow]
          rcases grows.done frozen inFlow with (none | most) | least
          · rw [none]
            split <;> exact Int.le_refl 0
          · simp [Item.atLimit, maxMain, most, target]
          · simp [Item.atLimit, minMain, least, target]

theorem Rising.claim_lt (state : Rising room items) : sumInFlow Item.claim items < room := by
  have less : sumInFlow Item.claim items ≤ sumInFlow Item.sure items :=
    sumInFlow_mono fun item member _ => (state.each item member).claim_le_sure
  exact Int.lt_of_le_of_lt less state.less

/-- What is free while the items ask for less than the room. -/
theorem Growing.freeSpace_eq (state : Growing room items) :
    freeSpace room items = room - sumInFlow Item.claim items ∧ 0 < freeSpace room items := by
  have free := freeSpace_cases state.range fun item member _ => (state.each item member).least_claim
  have := state.claim_lt
  omega

/-- Claims below zero are covered by the deficits. -/
theorem Growing.claim_bound (state : Growing room items) {item : Item} (member : item ∈ items)
    (flow : item.outOfFlow = false) :
    item.claim ≤ sumInFlow Item.claim items + sumInFlow Item.deficit items := by
  have nonneg : ∀ item ∈ items, item.outOfFlow = false → 0 ≤ item.claim - -item.deficit := by
    intro item member _
    have := (state.each item member).least_claim
    simp only [Item.deficit]
    omega
  have above := le_sumInFlow nonneg member flow
  rw [sumInFlow_sub, sumInFlow_neg] at above
  have : 0 ≤ item.deficit := Int.le_max_left _ _
  omega

/-- Space that is handed out raises the items above their base sizes. -/
theorem Rising.handOut (state : Rising room items) {free : Int} (nonneg : 0 ≤ free) :
    List.Forall₂ Item.Raised items (handOut true (shareOf true free items) items) := by
  have fair : (shareOf true free items).Fair := fair_shareOf (fun _ => nonneg) items
  refine ((List.forall₂_and_left _ _).2 ⟨state.each, handOut_fair true fair items⟩).imp ?_
  rintro item after ⟨grows, ⟨done, rfl⟩ | ⟨open_, share, nonneg, rfl⟩⟩
  · exact .frozen done
  · exact .raised open_ (Item.le_add_of_nonneg grows.fit.base nonneg)

/-- **A pass hands all of the free space to the growing items.** -/
theorem Growing.sumInFlow_handOut (state : Growing room items)
    (whole : 1024 ≤ factorSum true items) :
    sumInFlow Item.target (handOut true (shareOf true (freeSpace room items) items) items) =
      room := by
  obtain ⟨free, positive⟩ := state.freeSpace_eq
  have range := state.range
  have amount : (shareOf true (freeSpace room items) items).amount = freeSpace room items := rfl
  have covered : -sumInFlow Item.claim items ≤ sumInFlow Item.deficit items :=
    neg_sumInFlow_le fun item member => (state.each item member).least_claim
  rw [sumInFlow_handOut_shareOf]
  · rw [if_pos rfl, amount]
    omega
  · rw [amount]
    omega
  · exact Int.lt_of_lt_of_le (by decide) whole
  · intro item member open_
    obtain ⟨inFlow, -, weight, -⟩ := (state.each item member).open_ open_
    refine ⟨Int.le_of_lt weight, inFlow, fun share nonneg most _ => ?_⟩
    have base := (state.each item member).fit.base
    have bound := state.claim_bound member inFlow
    have claim : item.claim = item.base := if_neg (by simp [open_])
    rw [amount] at most
    have inRange : Pixel.InRange (item.base + share) := by
      simp only [Pixel.InRange] at base ⊢
      omega
    simp only [Item.give, Item.receive, if_true]
    rw [Pixel.add_of_inRange inRange]

/-- What is handed out changes nothing that the state of the line depends on. -/
theorem Rising.raised (state : Rising room items) (raised : List.Forall₂ Item.Raised items mid) :
    Rising room mid ∧ ∀ item ∈ mid, item.frozen = false → item.base ≤ item.target := by
  have inFlow (item after : Item) (raised : item.Raised after) :
      after.outOfFlow = item.outOfFlow := (congrArg Item.outOfFlow raised.unflexed_eq :)
  refine ⟨⟨fun after member => ?_, ?_, ?_⟩, fun after member open_ => ?_⟩
  · obtain ⟨item, among, from_⟩ := exists_of_mem_right raised member
    obtain ⟨fit, weight, opens, least, done⟩ := state.each item among
    cases from_ with
    | frozen => exact ⟨fit, weight, opens, least, done⟩
    | raised open_ =>
        exact ⟨⟨fit.base, fit.hypothetical⟩, weight, opens,
          fun frozen => by simp [open_] at frozen, fun frozen => by simp [open_] at frozen⟩
  · rw [← sumInFlow_congr raised inFlow fun item after raised _ => ?_]
    · exact state.less
    · cases raised with
      | frozen => rfl
      | raised open_ => simp [Item.sure, open_]
  · rcases state.full with all | ⟨sizes, reaches, enough⟩
    · left
      intro after member frozen
      obtain ⟨item, among, from_⟩ := exists_of_mem_right raised member
      cases from_ with
      | frozen => exact all _ among frozen
      | raised open_ => simp [open_] at frozen
    · right
      refine ⟨sizes, forall₂_trans ?_ raised.flip reaches, enough⟩
      rintro after item size from_ ⟨out, frozen, opens⟩
      cases from_ with
      | frozen => exact ⟨out, frozen, opens⟩
      | raised open_ => exact ⟨out, fun _ frozen => by simp [open_] at frozen, opens⟩
  · obtain ⟨item, among, from_⟩ := exists_of_mem_right raised member
    cases from_ with
    | frozen done => simp [done] at open_
    | raised _ more => exact more

theorem Growing.raised (state : Growing room items) (raised : List.Forall₂ Item.Raised items mid) :
    Growing room mid where
  toRising := (state.toRising.raised raised).1
  range := by
    rw [sumInFlow_of_unflexed (raised.imp fun _ _ step => step.unflexed_eq) fun _ => rfl]
    exact state.range

/-- Holding the targets raises items by no more than was free. -/
theorem Growing.adjusted (state : Growing room mid)
    (raised : ∀ item ∈ mid, item.frozen = false → item.base ≤ item.target) : Adjusted mid := by
  have flow : ∀ item ∈ mid, item.frozen = false → item.outOfFlow = false := fun item member open_ =>
    ((state.each item member).open_ open_).1
  refine ⟨fun item member open_ => ⟨flow item member open_,
    ((state.each item member).open_ open_).2.1⟩, totalViolation_cases flow ?_⟩
  have free := state.freeSpace_eq
  have range := state.range
  have covered : -sumInFlow Item.claim mid ≤ sumInFlow Item.deficit mid :=
    neg_sumInFlow_le fun item member => (state.each item member).least_claim
  have most : sumInFlow (fun item => if item.frozen then 0 else
      max 0 (item.hold item.target - item.target)) mid ≤
        sumInFlow (fun item => item.sure - item.claim) mid := by
    refine sumInFlow_mono fun item member _ => ?_
    cases done : item.frozen with
    | true => simp [Item.sure, Item.claim, done]
    | false =>
        have held := item.hold_le_max item.target
        have above := raised item member done
        have least := (state.each item member).fit.minMain_le
        obtain ⟨-, -, -, base⟩ := (state.each item member).open_ done
        simp only [Item.sure, Item.claim, done, Bool.false_eq_true, if_false]
        omega
  rw [sumInFlow_sub] at most
  have less := state.less
  omega

/-- **A pass over a growing line fills it, or leaves a line that grows.** -/
theorem Rising.settled (state : Rising room mid) (adjusted : Adjusted mid) (line : Line)
    (raised : ∀ item ∈ mid, item.frozen = false → item.base ≤ item.target)
    (fills : sumInFlow Item.target mid = room) :
    Rising room (Line.settled (line, mid)).2 ∨
      sumInFlow Item.target (Line.settled (line, mid)).2 = room ∧
        ∀ item ∈ (Line.settled (line, mid)).2, item.frozen = true := by
  obtain ⟨total', settles, held, total, still⟩ := adjusted.settles line
  generalize (Line.settled (line, mid)).2 = after at settles held still ⊢
  have settles' := (List.forall₂_and_left _ _).2 ⟨fun item member =>
    And.intro (state.each item member) (raised item member), settles⟩
  have each (adjusts : total' ≠ 0) : ∀ last ∈ after, last.Growing := by
    intro last member
    obtain ⟨item, -, ⟨grows, -⟩, step⟩ := exists_of_mem_right settles' member
    exact grows.settles adjusts step
  have less := state.less
  rcases Int.lt_trichotomy total' 0 with lowered | zero | lifted
  · left
    have sure : sumInFlow Item.sure after ≤ sumInFlow Item.held mid :=
      sumInFlow_le settles'.flip (fun _ _ both => both.2.outOfFlow_eq.symm)
        fun _ _ both _ => both.1.1.sure_le_held both.1.2 both.2
    refine ⟨each (by omega), by omega, state.full.imp (fun all last member => ?_) ?_⟩
    · obtain ⟨item, among, ⟨grows, -⟩, step⟩ := exists_of_mem_right settles' member
      exact grows.full_of_lowered lowered step (all item among)
    · rintro ⟨sizes, reaches, enough⟩
      refine ⟨sizes, forall₂_trans (fun last item size both reaches => ?_) settles'.flip reaches,
        enough⟩
      exact both.1.1.reaches_of_lowered lowered both.2 reaches
  · exact .inr ⟨by omega, still zero⟩
  · left
    have sure : sumInFlow Item.sure mid = sumInFlow Item.sure after :=
      sumInFlow_congr settles' (fun _ _ both => both.2.outOfFlow_eq)
        fun _ _ both _ => (both.1.1.sure_of_lifted both.1.2 lifted both.2).symm
    refine ⟨each (by omega), by omega, .inr ?_⟩
    -- All could still take what they were held to.
    refine ⟨mid.map fun item => if item.outOfFlow then 0 else item.held, ?_, ?_⟩
    · rw [List.forall₂_map_right_iff]
      exact settles'.flip.imp fun last item both => both.1.1.reaches_held both.2
    · show room ≤ sumInFlow Item.held mid
      omega

theorem Growing.settled (state : Growing room mid) (line : Line)
    (raised : ∀ item ∈ mid, item.frozen = false → item.base ≤ item.target)
    (fills : sumInFlow Item.target mid = room) :
    Growing room (Line.settled (line, mid)).2 ∨
      sumInFlow Item.target (Line.settled (line, mid)).2 = room ∧
        ∀ item ∈ (Line.settled (line, mid)).2, item.frozen = true := by
  have adjusted := state.adjusted raised
  refine (state.toRising.settled adjusted line raised fills).imp (fun rising => ⟨rising, ?_⟩) id
  obtain ⟨total, settles, -⟩ := adjusted.settles line
  rw [sumInFlow_of_unflexed (settles.imp fun _ _ step => step.unflexed_eq) fun _ => rfl]
  exact state.range

/-- A pass over growing items freezes one of them, and fills the line or leaves one that
grows. -/
theorem Growing.flexPass (state : Growing room items) (some : ∃ item ∈ items, item.frozen = false)
    (initial : Int) (line : Line) (whole : 1024 ≤ factorSum true items) :
    line.frozen < (Line.flexPass true initial room line items).1.frozen ∧
      (Growing room (Line.flexPass true initial room line items).2 ∨
        sumInFlow Item.target (Line.flexPass true initial room line items).2 = room ∧
          ∀ item ∈ (Line.flexPass true initial room line items).2, item.frozen = true) := by
  have positive := state.freeSpace_eq.2
  have fills := state.sumInFlow_handOut whole
  have raised := state.toRising.handOut (Int.le_of_lt positive)
  have mid := state.raised raised
  have above := (state.toRising.raised raised).2
  rw [flexPass_eq, passSpace_of_whole initial room whole, dealt, if_neg (by omega),
    apportion_of_weighty (.inl rfl)]
  have opens := exists_open raised (fun item after step => by cases step <;> rfl) some
  exact ⟨frozen_lt_settled (mid.adjusted above) opens, mid.settled line above fills⟩

/-! ## All passes -/

theorem rising_started (flexible : ∀ item ∈ items, item.Flexible)
    (less : sumInFlow Item.hypothetical items < room) : Rising room (started true items) := by
  refine ⟨fun after member => ?_, ?_, .inl fun after member => ?_⟩
  · obtain ⟨item, among, rfl⟩ := List.mem_map.1 member
    exact (flexible item among).growing_start.1
  · rwa [sumInFlow_started items (Item.sure_start true)]
  · obtain ⟨item, among, rfl⟩ := List.mem_map.1 member
    exact (flexible item among).growing_start.2

theorem sum_le_of_reaches {sizes : List Int} (reaches : List.Forall₂ Item.Reaches items sizes)
    (frozen : ∀ item ∈ items, item.frozen = true) : sizes.sum ≤ sumInFlow Item.sure items := by
  have each := (List.forall₂_and_left _ _).2 ⟨frozen, reaches⟩
  refine List.Forall₂.sum_le_sum (List.forall₂_map_right_iff.2 (each.flip.imp ?_))
  rintro size item ⟨done, reaches⟩
  cases out : item.outOfFlow with
  | true => exact Int.le_of_eq (reaches.out out)
  | false =>
      rw [if_neg Bool.false_ne_true, Item.sure, if_pos done]
      exact reaches.frozen out done

/-- **Items that still ask for less than the room are as large as they can be**, once all
of them are frozen. -/
theorem Rising.all_full (state : Rising room items) (frozen : ∀ item ∈ items, item.frozen = true) :
    ∀ item ∈ items, item.outOfFlow = false → item.Full := by
  rcases state.full with all | ⟨sizes, reaches, enough⟩
  · exact fun item member => all item member (frozen item member)
  · -- The items would have reached the room, but they ask for less.
    have most := sum_le_of_reaches reaches frozen
    have := state.less
    omega

theorem whole_of_frozen (whole : Whole (items.map fun item => { item with frozen := true })) :
    Whole items := by
  refine whole.imp (fun each item member =>
    each { item with frozen := true } (List.mem_map.2 ⟨item, member, rfl⟩)) fun left => ?_
  rwa [sumInFlow, List.map_map] at left

/-- **Growing items fill the room of their line, unless all of them are as large as they
can be.** -/
theorem filled_flex {available : Option Int} {gap : Int} (grows : line.grows available gap = true)
    (flexible : ∀ item ∈ items, item.Flexible)
    (range : max 0 (line.roomFor available gap) + sumInFlow Item.deficit items ≤ 2147483647)
    (less : sumInFlow Item.hypothetical items < line.roomFor available gap)
    (whole : Whole (line.flex items available gap).2) :
    sumInFlow Item.target (line.flex items available gap).2 = line.roomFor available gap ∨
      ∀ item ∈ (line.flex items available gap).2, item.outOfFlow = false → item.Full := by
  rw [flex_snd] at whole
  have start : Growing (line.roomFor available gap) (started true items) := by
    refine ⟨rising_started flexible less, ?_⟩
    rwa [sumInFlow_started items (Item.deficit_start true)]
  have ends := flex_ends line available gap (fun _ _ => Growing (line.roomFor available gap))
    (fun after => sumInFlow Item.target after = line.roomFor available gap)
    (grows ▸ start) fun _ before others _ some state stays => by
      rw [grows]
      exact state.flexPass some _ before
        (state.toRising.factorSum_le some stays (whole_of_frozen whole))
  obtain ⟨-, frozen, ⟨_, _, growing⟩ | filled⟩ := ends
  · exact .inr (growing.toRising.all_full frozen)
  · exact .inl filled

end Line

end FlexLayout
