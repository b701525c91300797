/-
# FlexLayout.Proofs.Flexing.Yielding -- items give way no more than they have to

When a line has no room to grow into, its items still fill the room when they have given
way (`yielded_flex`).

What carries this through the passes (`Line.Shrinking`): the items ask for the room at
least.  A pass without space to hand out leaves the targets of the pass before, which are
not enough if that pass froze items at their maximum.  There is no such pass as long as
the items ask for more than the room and their factors are no fractions, and none is
frozen at a maximum as long as base sizes are not cut by one (`Line.Tight`).
-/
import FlexLayout.Proofs.Flexing.Rounds

namespace FlexLayout

set_option autoImplicit false

namespace Item

structure Shrinking (item : Item) : Prop where
  fit : item.Fit
  weight : 0 ≤ item.shrink.raw
  open_ : item.frozen = false →
    item.outOfFlow = false ∧ item.Bounded ∧ item.hypothetical ≤ item.base
  least : item.frozen = true → item.minMain ≤ item.target

inductive Lowered (item : Item) : Item → Prop where
  | frozen (done : item.frozen = true) : Lowered item item
  | lowered (open_ : item.frozen = false) {size : Int} (less : size ≤ item.base) :
      Lowered item { item with target := size }

theorem Lowered.unflexed_eq {item after : Item} (lowered : item.Lowered after) :
    after.unflexed = item.unflexed := by
  cases lowered <;> rfl

/-- An item of a line that shrinks begins as such, and if it is open, it can shrink. -/
theorem Flexible.shrinking_start {item : Item} (flexible : item.Flexible) :
    (item.start false).Shrinking ∧ ((item.start false).frozen = false →
      item.outOfFlow = false ∧ item.shrink.raw ≠ 0 ∧ item.hypothetical ≤ item.base ∧
        (item.start false).target = item.base ∧
        (item.start false).unflexed = item.unflexed) := by
  obtain ⟨fit, bounded, -, shrink⟩ := flexible
  rcases item.start_cases false with ⟨-, same⟩ | ⟨inFlow, flexes, same⟩
  · rw [same]
    exact ⟨⟨⟨fit.base, fit.hypothetical⟩, shrink, fun open_ => Bool.noConfusion open_,
      fun _ => fit.minMain_le⟩, fun open_ => Bool.noConfusion open_⟩
  · simp only [inflexible, Factor.isZero, Bool.false_eq_true, if_false, Bool.or_eq_false_iff,
      beq_eq_false_iff_ne, decide_eq_false_iff_not] at flexes
    have less : item.hypothetical ≤ item.base := by omega
    rw [same]
    exact ⟨⟨⟨fit.base, fit.hypothetical⟩, shrink, fun _ => ⟨inFlow, bounded inFlow, less⟩,
      fun frozen => Bool.noConfusion frozen⟩, fun _ => ⟨inFlow, flexes.1, less, rfl, rfl⟩⟩

theorem Shrinking.least_claim {item : Item} (shrinks : item.Shrinking) :
    min item.base item.minMain ≤ item.claim := by
  have least := shrinks.least
  simp only [claim]
  split
  · have := least ‹_›
    omega
  · omega

theorem Shrinking.sure_le_claim {item : Item} (shrinks : item.Shrinking) : item.sure ≤ item.claim := by
  cases done : item.frozen with
  | true => simp [claim, sure, done]
  | false =>
      have := (shrinks.open_ done).2.2
      simpa [claim, sure, done] using this

theorem Shrinking.settles {total : Int} {item after : Item} (shrinks : item.Shrinking)
    (settles : item.Settles total after) : after.Shrinking := by
  obtain ⟨fit, weight, opens, least⟩ := shrinks
  cases settles with
  | frozen => exact ⟨fit, weight, opens, least⟩
  | held open_ violation =>
      exact ⟨⟨fit.base, fit.hypothetical⟩, weight, fun _ => opens open_,
        fun _ => item.minMain_le_hold item.target⟩

/-- Raised items ask for no less than they are held to. -/
theorem Shrinking.held_le_sure {total : Int} {item after : Item} (shrinks : item.Shrinking)
    (lowered : item.frozen = false → item.target ≤ item.base) (settles : item.Settles total after) :
    item.held ≤ after.sure := by
  cases settles with
  | frozen done => simp [sure, held, done]
  | held open_ violation =>
      have base := item.hold_mono (lowered open_)
      rw [← shrinks.fit.hypothetical] at base
      simp only [sure, held, open_, Bool.false_eq_true, if_false]
      split
      · exact Int.le_refl _
      · exact base

theorem Shrinking.sure_of_lowered {total : Int} {item after : Item} (shrinks : item.Shrinking)
    (lowered : item.frozen = false → item.target ≤ item.base) (falls : total < 0)
    (settles : item.Settles total after) : after.sure = item.sure := by
  cases settles with
  | frozen => rfl
  | held open_ violation =>
      obtain ⟨-, bounded, -⟩ := shrinks.open_ open_
      have below := lowered open_
      simp only [sure, open_]
      split
      · rename_i stops
        rcases stops_cases stops with zero | ⟨raised, -⟩ | ⟨-, limit, limited, above⟩
        · omega
        · omega
        · rw [hold_of_limit_lt bounded limited above, shrinks.fit.hypothetical]
          exact (hold_of_limit_lt bounded limited (Int.lt_of_lt_of_le above below)).symm
      · rfl

end Item

namespace Line

/-- What keeps targets from being left too small. -/
inductive Tight (room : Int) (items : List Item) : Prop where
  /-- No maximum cuts the base size of an open item, and the targets are enough. -/
  | uncut (each : ∀ item ∈ items, item.frozen = false →
      item.hypothetical = item.base ∧ item.hold item.target = item.target)
      (enough : room ≤ sumInFlow Item.target items)
  /-- The items ask for more than the room, and no factor is a fraction. -/
  | whole (more : room < sumInFlow Item.sure items)
      (each : ∀ item ∈ items, item.frozen = false → 1024 ≤ item.shrink.raw)

/-- The state of a line that shrinks, between passes. -/
structure Shrinking (room : Int) (items : List Item) : Prop where
  each : ∀ item ∈ items, item.Shrinking
  range : max 0 room + sumInFlow Item.deficit items ≤ 2147483647
  enough : room ≤ sumInFlow Item.sure items
  tight : Tight room items

variable {room : Int} {line : Line} {items mid after : List Item}

/-- Shrinking items claim no less than they take for sure. -/
theorem sure_le_claim (each : ∀ item ∈ items, item.Shrinking) :
    sumInFlow Item.sure items ≤ sumInFlow Item.claim items :=
  sumInFlow_mono fun item member _ => (each item member).sure_le_claim

theorem shrink_le_factorSum (each : ∀ item ∈ items, item.Shrinking) {item : Item}
    (member : item ∈ items) (open_ : item.frozen = false) :
    item.shrink.raw ≤ factorSum false items :=
  le_factorSum false (fun item member open_ => ((each item member).open_ open_).1)
    (fun item member => (each item member).weight) member open_

/-- What the items claim beyond the room bounds what a pass takes. -/
theorem Shrinking.freeSpace_le (state : Shrinking room items) :
    freeSpace room items ≤ 0 ∧ room - sumInFlow Item.claim items ≤ freeSpace room items ∧
      (room < sumInFlow Item.claim items → freeSpace room items < 0) := by
  have more := sure_le_claim state.each
  have free := freeSpace_cases state.range fun item member _ => (state.each item member).least_claim
  have := state.enough
  omega

/-- **A pass takes no more from the items than they claim beyond the room.** -/
theorem Shrinking.handOut (state : Shrinking room items) {free : Int}
    (bound : (free.natAbs : Int) ≤ sumInFlow Item.claim items - room)
    (weighty : Weighty false items) :
    List.Forall₂ Item.Lowered items (handOut false (shareOf false free items) items) ∧
      room ≤ sumInFlow Item.target (Line.handOut false (shareOf false free items) items) ∧
      sumInFlow Item.claim items -
        sumInFlow Item.target (Line.handOut false (shareOf false free items) items) ≤ 2147483647 := by
  have amount : (shareOf false free items).amount = Pixel.magnitude free := rfl
  have magnitude : 0 ≤ Pixel.magnitude free ∧ Pixel.magnitude free ≤ 2147483647 ∧
      Pixel.magnitude free ≤ free.natAbs := by
    simp only [Pixel.magnitude, Pixel.saturate]
    omega
  have sum : sumInFlow Item.target (Line.handOut false (shareOf false free items) items) =
      sumInFlow Item.claim items - Pixel.magnitude free := by
    rw [sumInFlow_handOut_shareOf]
    · rfl
    · rw [amount]
      omega
    · exact weighty.resolve_left Bool.false_ne_true
    · intro item member open_
      obtain ⟨inFlow, -, -⟩ := (state.each item member).open_ open_
      have base := (state.each item member).fit.base
      refine ⟨Int.mul_nonneg (state.each item member).weight (Int.le_max_right _ _), inFlow,
        fun share nonneg most some => ?_⟩
      -- Only an item with a base size above zero gives anything.
      have positive : share = 0 ∨ 0 < item.base := by
        refine some.imp id fun weighs => ?_
        by_contra none
        have zero : item.weight false = 0 := by
          show item.shrink.raw * max item.base 0 = 0
          rw [show max item.base 0 = 0 by omega, Int.mul_zero]
        omega
      rw [amount] at most
      have inRange : Pixel.InRange (item.base - share) := by
        simp only [Pixel.InRange] at base ⊢
        omega
      simp only [Item.give, Item.receive, Bool.false_eq_true, if_false]
      rw [Pixel.sub_of_inRange inRange]
  refine ⟨?_, by omega, by omega⟩
  have fair : (shareOf false free items).Fair := fair_shareOf Bool.noConfusion items
  refine ((List.forall₂_and_left _ _).2 ⟨state.each, handOut_fair false fair items⟩).imp ?_
  rintro item after ⟨shrinks, ⟨done, rfl⟩ | ⟨open_, share, nonneg, rfl⟩⟩
  · exact .frozen done
  · exact .lowered open_ (Item.sub_le_of_nonneg shrinks.fit.base nonneg)

/-- What is taken changes nothing that the state of the line depends on, and the items
keep enough. -/
structure Yielded (room : Int) (mid : List Item) : Prop where
  each : ∀ item ∈ mid, item.Shrinking ∧ (item.frozen = false → item.target ≤ item.base)
  range : max 0 room + sumInFlow Item.deficit mid ≤ 2147483647
  sure : room ≤ sumInFlow Item.sure mid
  enough : room ≤ sumInFlow Item.target mid
  /-- What was taken stays in the range. -/
  taken : sumInFlow Item.claim mid - sumInFlow Item.target mid ≤ 2147483647
  tight : (∀ item ∈ mid, item.frozen = false → item.hypothetical = item.base) ∨
    room < sumInFlow Item.sure mid ∧ ∀ item ∈ mid, item.frozen = false → 1024 ≤ item.shrink.raw

theorem Shrinking.yielded (state : Shrinking room items)
    (lowered : List.Forall₂ Item.Lowered items mid) (enough : room ≤ sumInFlow Item.target mid)
    (taken : sumInFlow Item.claim items - sumInFlow Item.target mid ≤ 2147483647) :
    Yielded room mid := by
  have inFlow (item after : Item) (lowered : item.Lowered after) :
      after.outOfFlow = item.outOfFlow := (congrArg Item.outOfFlow lowered.unflexed_eq :)
  have sure : sumInFlow Item.sure items = sumInFlow Item.sure mid :=
    sumInFlow_congr lowered inFlow fun item after step _ => by
      cases step with
      | frozen => rfl
      | lowered open_ => simp [Item.sure, open_]
  have claim : sumInFlow Item.claim items = sumInFlow Item.claim mid :=
    sumInFlow_congr lowered inFlow fun item after step _ => by
      cases step with
      | frozen => rfl
      | lowered open_ => simp [Item.claim, open_]
  have deficit : sumInFlow Item.deficit mid = sumInFlow Item.deficit items :=
    sumInFlow_of_unflexed (lowered.imp fun _ _ step => step.unflexed_eq) fun _ => rfl
  refine ⟨fun after member => ?_, deficit.symm ▸ state.range, sure ▸ state.enough, enough, claim ▸ taken, ?_⟩
  · obtain ⟨item, among, from_⟩ := exists_of_mem_right lowered member
    obtain ⟨fit, weight, opens, least⟩ := state.each item among
    cases from_ with
    | frozen done => exact ⟨⟨fit, weight, opens, least⟩, fun open_ => by simp [done] at open_⟩
    | lowered open_ less =>
        exact ⟨⟨⟨fit.base, fit.hypothetical⟩, weight, opens, fun frozen => by simp [open_] at frozen⟩,
          fun _ => less⟩
  · rcases state.tight with ⟨uncut, -⟩ | ⟨more, whole⟩
    · left
      intro after member open_
      obtain ⟨item, among, from_⟩ := exists_of_mem_right lowered member
      cases from_ with
      | frozen => exact (uncut _ among open_).1
      | lowered open_ => exact (uncut item among open_).1
    · right
      refine ⟨sure ▸ more, fun after member open_ => ?_⟩
      obtain ⟨item, among, from_⟩ := exists_of_mem_right lowered member
      cases from_ with
      | frozen => exact whole _ among open_
      | lowered open_ => exact whole item among open_

/-- Holding the targets raises items by no more than was taken. -/
theorem Yielded.adjusted (yielded : Yielded room mid) : Adjusted mid := by
  have opens (item : Item) (member : item ∈ mid) (open_ : item.frozen = false) :=
    (yielded.each item member).1.open_ open_
  refine ⟨fun item member open_ => ⟨(opens item member open_).1, (opens item member open_).2.1⟩,
    totalViolation_cases (fun item member open_ => (opens item member open_).1) ?_⟩
  refine Int.le_trans ?_ (sumInFlow_sub Item.claim Item.target mid ▸ yielded.taken)
  refine sumInFlow_mono fun item member _ => ?_
  obtain ⟨shrinks, lowered⟩ := yielded.each item member
  cases done : item.frozen with
  | true => simp [Item.claim, done]
  | false =>
      have below := lowered done
      have held := item.hold_mono below
      rw [← shrinks.fit.hypothetical] at held
      have base := (shrinks.open_ done).2.2
      simp only [Item.claim, done, Bool.false_eq_true, if_false]
      omega

/-- Without a maximum in the way, holding the targets lowers nothing. -/
theorem Yielded.target_le_held (yielded : Yielded room mid)
    (uncut : ∀ item ∈ mid, item.frozen = false → item.hypothetical = item.base) :
    sumInFlow Item.target mid ≤ sumInFlow Item.held mid := by
  refine sumInFlow_mono fun item member _ => ?_
  cases done : item.frozen with
  | true => exact Int.le_of_eq (held_frozen done).symm
  | false =>
      obtain ⟨shrinks, lowered⟩ := yielded.each item member
      obtain ⟨-, bounded, -⟩ := shrinks.open_ done
      rw [held_open done]
      refine Item.le_hold_of_le_limit fun limit limited => Int.le_trans (lowered done) ?_
      rw [← uncut item member done, shrinks.fit.hypothetical]
      exact Item.hold_le_limit bounded limited item.base

section

variable {total : Int} (settles : List.Forall₂ (Item.Settles total) mid after)

include settles

theorem was_open_of_settles {last : Item} (member : last ∈ after) (open_ : last.frozen = false) :
    ∃ item ∈ mid, item.frozen = false ∧ last.unflexed = item.unflexed ∧
      last.target = item.hold item.target := by
  obtain ⟨item, among, step⟩ := exists_of_mem_right settles member
  exact ⟨item, among, step.was_open open_⟩

theorem whole_of_settles (whole : ∀ item ∈ mid, item.frozen = false → 1024 ≤ item.shrink.raw) :
    ∀ last ∈ after, last.frozen = false → 1024 ≤ last.shrink.raw := by
  intro last member open_
  obtain ⟨item, among, was, same, -⟩ := was_open_of_settles settles member open_
  have shrink : last.shrink = item.shrink := (congrArg Item.shrink same :)
  exact shrink ▸ whole item among was

/-- Items whose base size no maximum cuts are held where they are from then on. -/
theorem uncut_of_settles (uncut : ∀ item ∈ mid, item.frozen = false → item.hypothetical = item.base) :
    ∀ last ∈ after, last.frozen = false →
      last.hypothetical = last.base ∧ last.hold last.target = last.target := by
  intro last member open_
  obtain ⟨item, among, was, same, target⟩ := was_open_of_settles settles member open_
  have hypothetical : last.hypothetical = item.hypothetical := (congrArg Item.hypothetical same :)
  have base : last.base = item.base := (congrArg Item.base same :)
  have hold : last.hold = item.hold := (congrArg Item.hold same :)
  rw [hypothetical, base, hold, target]
  exact ⟨uncut item among was, item.hold_hold_main item.target⟩

variable (shrinks : ∀ item ∈ mid, item.Shrinking)

include shrinks

theorem shrinking_of_settles : ∀ last ∈ after, last.Shrinking := by
  intro last member
  obtain ⟨item, among, step⟩ := exists_of_mem_right settles member
  exact (shrinks item among).settles step

variable (lowered : ∀ item ∈ mid, item.frozen = false → item.target ≤ item.base)

include lowered

/-- Together, lowered items ask for what they asked for before. -/
theorem sure_of_settles (falls : total < 0) : sumInFlow Item.sure mid = sumInFlow Item.sure after := by
  have settles' := (List.forall₂_and_left _ _).2 ⟨fun item member =>
    And.intro (shrinks item member) (lowered item member), settles⟩
  exact sumInFlow_congr settles' (fun _ _ both => both.2.outOfFlow_eq)
    fun _ _ both _ => (both.1.1.sure_of_lowered both.1.2 falls both.2).symm

/-- Together, items ask for no less than they are held to. -/
theorem held_le_sure_of_settles : sumInFlow Item.held mid ≤ sumInFlow Item.sure after := by
  have settles' := (List.forall₂_and_left _ _).2 ⟨fun item member =>
    And.intro (shrinks item member) (lowered item member), settles⟩
  exact sumInFlow_le settles' (fun _ _ both => both.2.outOfFlow_eq)
    fun _ _ both _ => both.1.1.held_le_sure both.1.2 both.2

end

/-- **A pass over a shrinking line ends with enough, or leaves a line that shrinks.** -/
theorem Yielded.settled (yielded : Yielded room mid) (line : Line) :
    Shrinking room (Line.settled (line, mid)).2 ∨
      room ≤ sumInFlow Item.target (Line.settled (line, mid)).2 ∧
        ∀ item ∈ (Line.settled (line, mid)).2, item.frozen = true := by
  obtain ⟨total, settles, held, adjusts, still⟩ := yielded.adjusted.settles line
  generalize (Line.settled (line, mid)).2 = after at settles held still ⊢
  have shrinks (item : Item) (member : item ∈ mid) := (yielded.each item member).1
  have lowered (item : Item) (member : item ∈ mid) := (yielded.each item member).2
  have deficit : sumInFlow Item.deficit after = sumInFlow Item.deficit mid :=
    sumInFlow_of_unflexed (settles.imp fun _ _ step => step.unflexed_eq) fun _ => rfl
  have each := shrinking_of_settles settles shrinks
  have enough := yielded.enough
  rcases Int.lt_trichotomy total 0 with falls | zero | rises
  · rcases yielded.tight with uncut | ⟨more, whole⟩
    · have raised := yielded.target_le_held uncut
      omega
    · have sure := sure_of_settles settles shrinks lowered falls
      exact .inl ⟨each, deficit.symm ▸ yielded.range, sure ▸ yielded.sure,
        .whole (sure ▸ more) (whole_of_settles settles whole)⟩
  · exact .inr ⟨by omega, still zero⟩
  · left
    have sure := held_le_sure_of_settles settles shrinks lowered
    refine ⟨each, deficit.symm ▸ yielded.range, by omega, ?_⟩
    rcases yielded.tight with uncut | ⟨-, whole⟩
    · exact .uncut (uncut_of_settles settles uncut) (by omega)
    · exact .whole (by omega) (whole_of_settles settles whole)

/-- A pass without space to hand out ends with the targets of the pass before. -/
theorem Shrinking.settled_of_uncut (state : Shrinking room items)
    (uncut : ∀ item ∈ items, item.frozen = false → item.hold item.target = item.target)
    (enough : room ≤ sumInFlow Item.target items) (line : Line) :
    Adjusted items ∧ room ≤ sumInFlow Item.target (Line.settled (line, items)).2 ∧
      ∀ item ∈ (Line.settled (line, items)).2, item.frozen = true := by
  have opens (item : Item) (member : item ∈ items) (open_ : item.frozen = false) :=
    (state.each item member).open_ open_
  have held : sumInFlow Item.held items = sumInFlow Item.target items := by
    refine Int.le_antisymm (sumInFlow_mono fun item member _ => ?_)
      (sumInFlow_mono fun item member _ => ?_)
    · cases done : item.frozen with
      | true => exact Int.le_of_eq (held_frozen done)
      | false => exact Int.le_of_eq ((held_open done).trans (uncut item member done))
    · cases done : item.frozen with
      | true => exact Int.le_of_eq (held_frozen done).symm
      | false => exact Int.le_of_eq ((held_open done).trans (uncut item member done)).symm
  have total := totalViolation_cases (fun item member open_ => (opens item member open_).1)
    (Int.le_trans (sumInFlow_mono (g := fun _ => 0) fun item member _ => by
      split
      · exact Int.le_refl 0
      · rename_i open_
        rw [uncut item member (by simpa using open_), Int.sub_self]
        exact Int.le_refl 0) (by simp [sumInFlow]))
  have adjusted : Adjusted items :=
    ⟨fun item member open_ => ⟨(opens item member open_).1, (opens item member open_).2.1⟩, total⟩
  obtain ⟨adjustment, -, ends, adjusts, still⟩ := adjusted.settles line
  exact ⟨adjusted, by omega, still (by omega)⟩

theorem apportion_of_weightless (weightless : ¬Weighty false items) (free : Int) (line : Line) :
    (apportion false free line items).2 =
      items.map fun item => { item with target := item.sure, frozen := true } := by
  have total := (not_or.1 weightless).2
  unfold apportion
  rw [if_neg Bool.false_ne_true]
  dsimp only
  rw [if_pos (by omega), freeze_snd, List.map_map]
  refine List.map_congr_left fun item _ => ?_
  rw [Function.comp_apply, Item.freezeIf_always]
  cases done : item.frozen with
  | true => simp [Item.sure, done]
  | false => simp [Item.sure, done]

/-- **Without any weight, a pass freezes all items where they were measured.** -/
theorem settled_of_weightless (weightless : ¬Weighty false items) (free : Int) {line : Line}
    (tallied : Tallied line items) (some : ∃ item ∈ items, item.frozen = false) :
    line.frozen < (settled (apportion false free line items)).1.frozen ∧
      (settled (apportion false free line items)).2 =
        items.map fun item => { item with target := item.sure, frozen := true } := by
  have all := apportion_of_weightless weightless free line
  have frozen : ∀ item ∈ (apportion false free line items).2, item.frozen = true := by
    rw [all]
    exact List.forall_mem_map.2 fun _ _ => rfl
  have more := frozen_lt_apportion weightless free tallied ((lt_length_iff tallied).2 some)
  refine ⟨Nat.lt_of_lt_of_le more (frozen_le_settled _), ?_⟩
  rw [settled_of_frozen frozen, all]

/-- **A pass over shrinking items freezes one of them, and ends with enough or leaves a
line that shrinks.** -/
theorem Shrinking.flexPass (state : Shrinking room items) (initial : Int) {line : Line}
    (tallied : Tallied line items) (some : ∃ item ∈ items, item.frozen = false) :
    line.frozen < (Line.flexPass false initial room line items).1.frozen ∧
      (Shrinking room (Line.flexPass false initial room line items).2 ∨
        room ≤ sumInFlow Item.target (Line.flexPass false initial room line items).2 ∧
          ∀ item ∈ (Line.flexPass false initial room line items).2, item.frozen = true) := by
  obtain ⟨none, most, less⟩ := state.freeSpace_le
  have bound := natAbs_passSpace_le false initial room items
  rw [flexPass_eq]
  have nothing : passSpace false initial room items = 0 → (∀ item ∈ items, item.frozen = false →
      item.hold item.target = item.target) ∧ room ≤ sumInFlow Item.target items := by
    intro zero
    rcases state.tight with ⟨uncut, enough⟩ | ⟨more, whole⟩
    · exact ⟨fun item member open_ => (uncut item member open_).2, enough⟩
    · -- Whole factors hand out all that is claimed beyond the room.
      obtain ⟨item, member, open_⟩ := some
      have factor := shrink_le_factorSum state.each member open_
      have least := whole item member open_
      rw [passSpace_of_whole initial room (by omega)] at zero
      have claims := sure_le_claim state.each
      omega
  generalize passSpace false initial room items = free at bound nothing ⊢
  by_cases zero : free = 0
  · obtain ⟨uncut, enough⟩ := nothing zero
    obtain ⟨adjusted, ends⟩ := state.settled_of_uncut uncut enough line
    rw [dealt, if_pos zero]
    exact ⟨frozen_lt_settled adjusted some, .inr ends⟩
  · rw [dealt, if_neg zero]
    by_cases weighty : Weighty false items
    · have covered : (free.natAbs : Int) ≤ sumInFlow Item.claim items - room := by omega
      obtain ⟨lowered, enough, taken⟩ := state.handOut covered weighty
      rw [apportion_of_weighty weighty]
      have yielded := state.yielded lowered enough taken
      have opens := exists_open lowered (fun item after step => by cases step <;> rfl) some
      exact ⟨frozen_lt_settled yielded.adjusted opens, yielded.settled line⟩
    · obtain ⟨more, all⟩ := settled_of_weightless weighty free tallied some
      refine ⟨more, .inr ?_⟩
      rw [all, sumInFlow, List.map_map]
      exact ⟨state.enough, List.forall_mem_map.2 fun _ _ => rfl⟩

/-! ## All passes -/

/-- What the items of a shrinking line must be like: either no maximum cuts the base size
of an item that can shrink, or the items ask for more than the room and no shrink factor
is a fraction. -/
def Yields (room : Int) (items : List Item) : Prop :=
  (∀ item ∈ items, item.outOfFlow = false → item.shrink.raw ≠ 0 → item.base ≤ item.hypothetical) ∨
    room < sumInFlow Item.hypothetical items ∧
      ∀ item ∈ items, item.outOfFlow = false → item.shrink.raw = 0 ∨ 1024 ≤ item.shrink.raw

theorem shrinking_started (flexible : ∀ item ∈ items, item.Flexible)
    (range : max 0 room + sumInFlow Item.deficit items ≤ 2147483647)
    (enough : room ≤ sumInFlow Item.hypothetical items) (yields : Yields room items) :
    Shrinking room (started false items) := by
  have sure := sumInFlow_started items (Item.sure_start false)
  have opens : ∀ after ∈ started false items, after.frozen = false →
      ∃ item ∈ items, item.outOfFlow = false ∧ item.shrink.raw ≠ 0 ∧
        item.hypothetical ≤ item.base ∧ after.target = after.base ∧
        after.unflexed = item.unflexed := by
    intro after member open_
    obtain ⟨item, among, rfl⟩ := List.mem_map.1 member
    obtain ⟨inFlow, shrinks, less, target, same⟩ := (flexible item among).shrinking_start.2 open_
    have base : (item.start false).base = item.base := (congrArg Item.base same :)
    exact ⟨item, among, inFlow, shrinks, less, target.trans base.symm, same⟩
  have each : ∀ after ∈ started false items, after.Shrinking := by
    intro after member
    obtain ⟨item, among, rfl⟩ := List.mem_map.1 member
    exact (flexible item among).shrinking_start.1
  refine ⟨each, ?_, by omega, ?_⟩
  · rwa [sumInFlow_started items (Item.deficit_start false)]
  rcases yields with uncut | ⟨more, whole⟩
  · -- Open items ask for their base size, which their limits do not change.
    have asks : ∀ after ∈ started false items, after.frozen = false →
        after.hypothetical = after.base ∧ after.target = after.base := by
      intro after member open_
      obtain ⟨item, among, inFlow, shrinks, less, target, same⟩ := opens after member open_
      have base : after.base = item.base := (congrArg Item.base same :)
      have hypothetical : after.hypothetical = item.hypothetical :=
        (congrArg Item.hypothetical same :)
      rw [hypothetical, base]
      exact ⟨Int.le_antisymm less (uncut item among inFlow shrinks), target.trans base⟩
    refine .uncut (fun after member open_ => ?_) ?_
    · obtain ⟨hypothetical, target⟩ := asks after member open_
      refine ⟨hypothetical, ?_⟩
      rw [target, ← (each after member).fit.hypothetical, hypothetical]
    · refine Int.le_trans (Int.le_trans enough (Int.le_of_eq sure.symm))
        (sumInFlow_mono fun after member _ => ?_)
      cases done : after.frozen with
      | true => exact Int.le_of_eq (if_pos done)
      | false =>
          obtain ⟨hypothetical, target⟩ := asks after member done
          rw [target, ← hypothetical]
          exact Int.le_of_eq (if_neg (by simp [done]))
  · refine .whole (by omega) fun after member open_ => ?_
    obtain ⟨item, among, inFlow, shrinks, -, -, same⟩ := opens after member open_
    have shrink : after.shrink = item.shrink := (congrArg Item.shrink same :)
    rw [shrink]
    exact (whole item among inFlow).resolve_left shrinks

/-- **Shrinking items still fill the room of their line.** -/
theorem yielded_flex {available : Option Int} {gap : Int} (shrinks : line.grows available gap = false)
    (flexible : ∀ item ∈ items, item.Flexible)
    (range : max 0 (line.roomFor available gap) + sumInFlow Item.deficit items ≤ 2147483647)
    (enough : line.roomFor available gap ≤ sumInFlow Item.hypothetical items)
    (yields : Yields (line.roomFor available gap) items) :
    line.roomFor available gap ≤ sumInFlow Item.target (line.flex items available gap).2 := by
  have ends := flex_ends line available gap (fun _ _ => Shrinking (line.roomFor available gap))
    (fun after => line.roomFor available gap ≤ sumInFlow Item.target after)
    (shrinks ▸ shrinking_started flexible range enough yields)
    fun _ before others tallied some state _ => by
      rw [shrinks]
      exact state.flexPass _ tallied some
  obtain ⟨-, frozen, ⟨_, _, shrinking⟩ | filled⟩ := ends
  · rw [← sumInFlow_sure frozen]
    exact shrinking.enough
  · exact filled

end Line

end FlexLayout
