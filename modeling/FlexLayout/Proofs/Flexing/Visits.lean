/-
# FlexLayout.Proofs.Flexing.Visits -- the states in which passes are made

`Line.visits` lists the states that passes are made in, first to last, and `Line.rounds`
those of a whole line.  What every pass keeps holds in all of them and of what they end
with (`visits_keep`, `Unclipped.rounds_keep`).

No limits are in order here: an item may have its minimum above its maximum.  The end of a
pass holds every open item and freezes it where a bound that it was held to asks for it
(`Item.Lands`).  A pass that freezes none must have lowered an item to a minimum above its
maximum, which counts as raising it (`flexPass_progress`).  As further passes then repeat
that one, what a run ends with is what its last pass that matters ends with
(`flexPasses_close`).
-/
import FlexLayout.Proofs.Flexing.Unclipped
import FlexLayout.Proofs.Flexing.Yielding

namespace FlexLayout

set_option autoImplicit false

namespace Item

/-- The bound that a held target hit, and what that says of its size. -/
theorem violation_cases (item : Item) :
    item.holdTarget.violation = .none ∧ item.hold item.target = item.target ∨
      item.holdTarget.violation = .min ∧ item.hold item.target = item.minMain ∧
        (item.target < item.minMain ∨ ¬item.Bounded) ∨
      item.holdTarget.violation = .max ∧ item.maxMain = some (item.hold item.target) ∧
        item.hold item.target < item.target := by
  simp only [holdTarget, hold, Bounded]
  cases limited : item.maxMain with
  | none =>
      by_cases below : item.target < item.minMain
      · right; left
        refine ⟨by simp [below], ?_, .inl below⟩
        dsimp only
        omega
      · left
        refine ⟨by simp [below], ?_⟩
        dsimp only
        omega
  | some limit =>
      by_cases above : limit < item.target
      · by_cases below : limit < item.minMain
        · right; left
          refine ⟨by simp [above, below], ?_, .inr fun order => ?_⟩
          · dsimp only
            omega
          · have := order limit rfl
            omega
        · right; right
          refine ⟨by simp [above, below], ?_, ?_⟩
          · dsimp only
            rw [Option.some_inj]
            omega
          · dsimp only
            omega
      · by_cases below : item.target < item.minMain
        · right; left
          refine ⟨by simp [above, below], ?_, .inl below⟩
          dsimp only
          omega
        · left
          refine ⟨by simp [above, below], ?_⟩
          dsimp only
          omega

/-- What the end of a pass does to an item, whatever its limits are. -/
inductive Lands (total : Int) (item : Item) : Item → Prop where
  | frozen (done : item.frozen = true) : Lands total item item
  | held (open_ : item.frozen = false) (violation : Violation) {freeze : Bool}
      (stops : freeze = true → total = 0 ∨ 0 < total ∧ item.hold item.target = item.minMain ∨
        total < 0 ∧ item.maxMain = some (item.hold item.target))
      (all : total = 0 → freeze = true) :
      Lands total item
        { item with target := item.hold item.target, violation := violation, frozen := freeze }

theorem Lands.unflexed_eq {total : Int} {item after : Item} (lands : item.Lands total after) :
    after.unflexed = item.unflexed := by
  cases lands <;> rfl

theorem Lands.outOfFlow_eq {total : Int} {item after : Item} (lands : item.Lands total after) :
    after.outOfFlow = item.outOfFlow := (congrArg Item.outOfFlow lands.unflexed_eq :)

theorem Lands.held_eq {total : Int} {item after : Item} (lands : item.Lands total after) :
    item.held = after.target := by
  cases lands with
  | frozen done => exact if_pos done
  | held open_ => exact if_neg (by simp [open_])

theorem Lands.frozen_of_zero {total : Int} {item after : Item} (lands : item.Lands total after)
    (zero : total = 0) : after.frozen = true := by
  cases lands with
  | frozen done => exact done
  | held _ _ _ all => exact all zero

theorem lands_holdTarget {item : Item} (open_ : item.frozen = false) (total : Int) :
    item.Lands total { item.holdTarget with frozen := Line.freezes total item.holdTarget } := by
  obtain ⟨violation, held⟩ := item.exists_holdTarget
  have noMin : (Violation.none == Violation.min) = false := rfl
  have noMax : (Violation.none == Violation.max) = false := rfl
  have notMax : (Violation.min == Violation.max) = false := rfl
  have notMin : (Violation.max == Violation.min) = false := rfl
  have cases_ := item.violation_cases
  rw [held] at cases_ ⊢
  refine .held open_ violation (fun stops => ?_) fun zero => ?_
  · simp only [Line.freezes, Bool.or_eq_true, Bool.and_eq_true, beq_iff_eq, decide_eq_true_eq] at stops
    rcases stops with (zero | ⟨raised, hit⟩) | ⟨lowered, hit⟩
    · exact .inl zero
    · refine .inr (.inl ⟨raised, ?_⟩)
      rcases cases_ with ⟨other, -⟩ | ⟨-, least, -⟩ | ⟨other, -⟩
      · exact absurd (hit.symm.trans other) (by decide)
      · exact least
      · exact absurd (hit.symm.trans other) (by decide)
    · refine .inr (.inr ⟨lowered, ?_⟩)
      rcases cases_ with ⟨other, -⟩ | ⟨other, -⟩ | ⟨-, most, -⟩
      · exact absurd (hit.symm.trans other) (by decide)
      · exact absurd (hit.symm.trans other) (by decide)
      · exact most
  · simp [Line.freezes, zero]

end Item

namespace Line

variable {growing : Bool} {initial room : Int} {line : Line} {items : List Item}

/-! ## One pass -/

/-- **What the end of a pass makes of the items**, whatever their limits are. -/
theorem settled_lands (line : Line) (items : List Item) :
    List.Forall₂ (Item.Lands (totalViolation items)) items (settled (line, items)).2 := by
  show List.Forall₂ _ items ((holdTargets items).map (Item.freezeIf _))
  rw [holdTargets_eq, List.map_map, List.forall₂_map_right_iff]
  refine List.forall₂_same.2 fun item _ => ?_
  rw [Function.comp_apply]
  cases done : item.frozen with
  | true =>
      rw [Item.holdOpen_frozen done, Item.freezeIf_frozen _ done]
      exact .frozen done
  | false =>
      have still : item.holdTarget.frozen = false := item.frozen_holdTarget.trans done
      rw [Item.holdOpen_open done, Item.freezeIf_open _ still]
      exact Item.lands_holdTarget done _

theorem sumInFlow_settled (line : Line) (items : List Item) :
    sumInFlow Item.target (settled (line, items)).2 = sumInFlow Item.held items :=
  (sumInFlow_congr (settled_lands line items) (fun _ _ step => step.outOfFlow_eq)
    fun _ _ step _ => step.held_eq).symm

/-- **Holding freezes an item, or has lowered one to a minimum above its maximum.** -/
theorem settled_progress (total : totalViolation items =
      sumInFlow Item.held items - sumInFlow Item.target items)
    (some : ∃ item ∈ items, item.frozen = false) (line : Line) :
    line.frozen < (settled (line, items)).1.frozen ∨ totalViolation items < 0 ∧
      ∃ item ∈ items, item.frozen = false ∧ ¬item.Bounded ∧ item.minMain < item.target := by
  by_cases stops : ∃ item ∈ items, item.frozen = false ∧
      freezes (totalViolation items) item.holdTarget = true
  · obtain ⟨item, member, open_, stops⟩ := stops
    exact .inl (frozen_lt_settled_of_freezes member open_ stops)
  have never : ∀ item ∈ items, item.frozen = false →
      freezes (totalViolation items) item.holdTarget ≠ true :=
    fun item member open_ hit => stops ⟨item, member, open_, hit⟩
  rcases Int.lt_trichotomy (totalViolation items) 0 with lowered | zero | raised
  · refine .inr ⟨lowered, ?_⟩
    by_contra none
    -- Nothing was held from above, so all that was held was raised.
    have le : sumInFlow Item.target items ≤ sumInFlow Item.held items := by
      refine sumInFlow_mono fun item member _ => ?_
      cases done : item.frozen with
      | true => exact Int.le_of_eq (held_frozen done).symm
      | false =>
          rw [held_open done]
          rcases item.violation_cases with ⟨-, kept⟩ | ⟨-, least, below | torn⟩ | ⟨hit, -⟩
          · exact Int.le_of_eq kept.symm
          · omega
          · have inside := Int.not_lt.1 fun above => none ⟨item, member, done, torn, above⟩
            omega
          · exact absurd (by simp [freezes, hit, lowered]) (never item member done)
    omega
  · obtain ⟨item, member, open_⟩ := some
    exact absurd (by simp [freezes, zero]) (never item member open_)
  · have le : sumInFlow Item.held items ≤ sumInFlow Item.target items := by
      refine sumInFlow_mono fun item member _ => ?_
      cases done : item.frozen with
      | true => exact Int.le_of_eq (held_frozen done)
      | false =>
          rw [held_open done]
          rcases item.violation_cases with ⟨-, kept⟩ | ⟨hit, -⟩ | ⟨-, -, above⟩
          · exact Int.le_of_eq kept
          · exact absurd (by simp [freezes, hit, raised]) (never item member done)
          · exact Int.le_of_lt above
    omega

theorem handOut_waits (growing : Bool) (share : Share) (items : List Item) :
    List.Forall₂ Item.Waits items (handOut growing share items) :=
  waits_deal (fun _ _ => ⟨_, rfl⟩) share items

/-- What the first half of a pass does: nothing, hand out shares, or freeze all items where
they were measured. -/
theorem dealt_cases (growing : Bool) (free : Int) (line : Line) (items : List Item) :
    free = 0 ∧ dealt growing free line items = (line, items) ∨
      free ≠ 0 ∧ Weighty growing items ∧
        dealt growing free line items = (line, handOut growing (shareOf growing free items) items) ∨
      free ≠ 0 ∧ growing = false ∧ ¬Weighty growing items ∧
        dealt growing free line items = apportion growing free line items := by
  by_cases zero : free = 0
  · exact .inl ⟨zero, if_pos zero⟩
  · have some : dealt growing free line items = apportion growing free line items := if_neg zero
    by_cases weighty : Weighty growing items
    · exact .inr (.inl ⟨zero, weighty, some.trans (apportion_of_weighty weighty free line)⟩)
    · have shrinks : growing = false := by simpa using (not_or.1 weighty).1
      exact .inr (.inr ⟨zero, shrinks, weighty, some⟩)

/-- **Every pass freezes an item, or lowers one to a minimum above its maximum.** -/
theorem flexPass_progress (tallied : Tallied line items)
    (some : ∃ item ∈ items, item.frozen = false)
    (unclipped : UnclippedPass growing initial room line items) :
    line.frozen < (flexPass growing initial room line items).1.frozen ∨
      ∃ item ∈ items, item.frozen = false ∧ ¬item.Bounded := by
  have total := unclipped.adjusted
  rw [flexPass_eq]
  rcases dealt_cases growing (passSpace growing initial room items) line items with
    ⟨-, same⟩ | ⟨-, -, same⟩ | ⟨-, rfl, weightless, same⟩
  · rw [same] at total ⊢
    refine (settled_progress total some line).imp_right fun ⟨_, item, member, open_, torn, _⟩ => ?_
    exact ⟨item, member, open_, torn⟩
  · rw [same] at total ⊢
    have waits := handOut_waits growing
      (shareOf growing (passSpace growing initial room items) items) items
    have opens := exists_open waits (fun _ _ step => step.frozen) some
    refine (settled_progress total opens line).imp_right fun ⟨_, last, member, open_, torn, _⟩ => ?_
    obtain ⟨item, among, step⟩ := exists_of_mem_right waits member
    refine ⟨item, among, step.frozen.symm.trans open_, fun order => torn ?_⟩
    have bounded : item.unflexed.Bounded := order
    rw [← step.unflexed] at bounded
    exact bounded
  · rw [same]
    exact .inl (settled_of_weightless weightless _ tallied some).1

/-! ## All passes -/

/-- The states in which passes are made, in order, when at most so many are. -/
def visits (growing : Bool) (initial room : Int) : Nat → Line → List Item → List (Line × List Item)
  | 0, _, _ => []
  | n + 1, line, items =>
      if items.length ≤ line.frozen then []
      else
        let next := flexPass growing initial room line items
        (line, items) :: visits growing initial room n next.1 next.2

/-- **What every pass keeps holds wherever one is made, and in the end.**  A pass may use
what is known of all states in which passes are made. -/
theorem visits_keep (Good : Line → List Item → Prop) (Inv : List Item → Prop)
    (step : ∀ line items, Tallied line items → (∃ item ∈ items, item.frozen = false) →
      Good line items → Inv items → Inv (flexPass growing initial room line items).2)
    (n : Nat) {line : Line} {items : List Item} (tallied : Tallied line items)
    (good : ∀ state ∈ visits growing initial room n line items, Good state.1 state.2)
    (inv : Inv items) :
    (∀ state ∈ visits growing initial room n line items,
      Tallied state.1 state.2 ∧ (∃ item ∈ state.2, item.frozen = false) ∧ Inv state.2) ∧
    Inv (flexPasses growing initial room n line items).2 := by
  induction n generalizing line items with
  | zero => exact ⟨fun state member => absurd member List.not_mem_nil, inv⟩
  | succ n ih =>
      by_cases all : items.length ≤ line.frozen
      · rw [flexPasses_of_all all, visits, if_pos all]
        exact ⟨fun state member => absurd member List.not_mem_nil, inv⟩
      · rw [visits, if_neg all] at good ⊢
        rw [flexPasses, if_neg all]
        obtain ⟨here, later⟩ := List.forall_mem_cons.1 good
        have some := (lt_length_iff tallied).1 (Nat.lt_of_not_le all)
        obtain ⟨rest, ends⟩ := ih tallied.flexPass later (step line items tallied some here inv)
        exact ⟨List.forall_mem_cons.2 ⟨⟨tallied, some, inv⟩, rest⟩, ends⟩

/-- Passes stay within the range if each one does that is made. -/
theorem unclippedPasses_iff (n : Nat) (line : Line) (items : List Item) :
    UnclippedPasses growing initial room n line items ↔
      ∀ state ∈ visits growing initial room n line items,
        UnclippedPass growing initial room state.1 state.2 := by
  induction n generalizing line items with
  | zero => exact ⟨fun _ state member => absurd member List.not_mem_nil, fun _ => trivial⟩
  | succ n ih =>
      rw [UnclippedPasses, visits]
      by_cases all : items.length ≤ line.frozen
      · rw [if_pos all]
        exact ⟨fun _ state member => absurd member List.not_mem_nil, fun _ => .inl all⟩
      · rw [if_neg all, List.forall_mem_cons]
        dsimp only
        rw [ih]
        exact ⟨fun either => either.resolve_left all, .inr⟩

theorem mem_visits_succ (n : Nat) {line : Line} {items : List Item} {state : Line × List Item}
    (member : state ∈ visits growing initial room n line items) :
    state ∈ visits growing initial room (n + 1) line items := by
  induction n generalizing line items with
  | zero => exact absurd member List.not_mem_nil
  | succ n ih =>
      rw [visits] at member ⊢
      by_cases all : items.length ≤ line.frozen
      · rw [if_pos all] at member
        exact absurd member List.not_mem_nil
      · rw [if_neg all] at member ⊢
        exact (List.mem_cons.1 member).elim (fun here => here ▸ List.mem_cons_self)
          fun later => List.mem_cons_of_mem _ (ih later)

/-- If every pass that is made freezes an item, there are no more passes than open items. -/
theorem length_visits_le (n : Nat) {line : Line} {items : List Item} (tallied : Tallied line items)
    (progress : ∀ state ∈ visits growing initial room n line items,
      state.1.frozen < (flexPass growing initial room state.1 state.2).1.frozen) :
    line.frozen + (visits growing initial room n line items).length ≤ items.length := by
  induction n generalizing line items with
  | zero => exact tallied.frozen ▸ List.countP_le_length
  | succ n ih =>
      rw [visits] at progress ⊢
      by_cases all : items.length ≤ line.frozen
      · rw [if_pos all]
        exact tallied.frozen ▸ List.countP_le_length
      · rw [if_neg all] at progress ⊢
        obtain ⟨here, later⟩ := List.forall_mem_cons.1 progress
        dsimp only at here
        have rest := ih tallied.flexPass later
        have length := (flexPass_passed growing initial room line items).length_eq
        rw [List.length_cons]
        omega

/-- If every pass that is made freezes an item, as many passes as there are open items
freeze all of them. -/
theorem frozen_flexPasses (n : Nat) {line : Line} {items : List Item} (tallied : Tallied line items)
    (enough : items.length ≤ line.frozen + n)
    (progress : ∀ state ∈ visits growing initial room n line items,
      state.1.frozen < (flexPass growing initial room state.1 state.2).1.frozen) :
    (flexPasses growing initial room n line items).1.frozen = items.length := by
  induction n generalizing line items with
  | zero => exact Nat.le_antisymm (tallied.frozen ▸ List.countP_le_length) enough
  | succ n ih =>
      by_cases all : items.length ≤ line.frozen
      · rw [flexPasses_of_all all]
        exact Nat.le_antisymm (tallied.frozen ▸ List.countP_le_length) all
      · rw [visits, if_neg all] at progress
        obtain ⟨here, later⟩ := List.forall_mem_cons.1 progress
        dsimp only at here
        have length := (flexPass_passed growing initial room line items).length_eq
        rw [flexPasses, if_neg all]
        exact (ih tallied.flexPass (by omega) later).trans length.symm

/-- If any pass is made, the first one is made in the state that the passes begin with. -/
theorem mem_visits_start {n : Nat} {line : Line} {items : List Item} {state : Line × List Item}
    (member : state ∈ visits growing initial room n line items) :
    (line, items) ∈ visits growing initial room n line items := by
  cases n with
  | zero => exact absurd member List.not_mem_nil
  | succ n =>
      rw [visits] at member ⊢
      by_cases all : items.length ≤ line.frozen
      · rw [if_pos all] at member
        exact absurd member List.not_mem_nil
      · rw [if_neg all]
        exact List.mem_cons_self

theorem sumInFlow_closing (state : Line × List Item) :
    sumInFlow Item.target (closing state).2 = sumInFlow Item.target state.2 := by
  rw [closing_eq, sumInFlow, List.map_map]
  rfl

/-- **What the items take in the end is settled by a pass that freezes all of them, or
none**, since the passes that follow one that freezes none repeat it. -/
theorem flexPasses_close (Good : Line → List Item → Prop) (Inv : List Item → Prop)
    (Done : Int → Prop)
    (step : ∀ line items, Tallied line items → (∃ item ∈ items, item.frozen = false) →
      Good line items → Inv items →
      let next := flexPass growing initial room line items
      line.frozen < next.1.frozen ∧ Inv next.2 ∨
        Done (sumInFlow Item.target next.2) ∧
          (next.1.frozen = line.frozen ∨ ∀ item ∈ next.2, item.frozen = true))
    (ends : ∀ items, Inv items → (∀ item ∈ items, item.frozen = true) →
      Done (sumInFlow Item.target items))
    (n : Nat) {line : Line} {items : List Item} (tallied : Tallied line items)
    (enough : items.length ≤ line.frozen + n)
    (good : ∀ state ∈ visits growing initial room n line items, Good state.1 state.2)
    (inv : Inv items) :
    Done (sumInFlow Item.target (flexPasses growing initial room n line items).2) := by
  induction n generalizing line items with
  | zero => exact ends items inv (all_frozen_of_le tallied enough)
  | succ n ih =>
      by_cases all : items.length ≤ line.frozen
      · rw [flexPasses_of_all all]
        exact ends items inv (all_frozen_of_le tallied all)
      rw [visits, if_neg all] at good
      obtain ⟨here, later⟩ := List.forall_mem_cons.1 good
      have more := Nat.lt_of_not_le all
      have some := (lt_length_iff tallied).1 more
      have length := (flexPass_passed growing initial room line items).length_eq
      rw [flexPasses, if_neg all]
      dsimp only
      rcases step line items tallied some here inv with ⟨progress, inv⟩ | ⟨done, stall | frozen⟩
      · exact ih tallied.flexPass (by omega) later inv
      · rw [← sumInFlow_closing, closing_flexPasses_of_stall tallied more stall, sumInFlow_closing]
        exact done
      · have frozen' : (flexPass growing initial room line items).2.length ≤
            (flexPass growing initial room line items).1.frozen :=
          Nat.le_of_eq (tallied.flexPass.frozen.trans (List.countP_eq_length.2 frozen)).symm
        rw [flexPasses_of_all frozen']
        exact done

/-! ## Flexing a line -/

def initialSpace (line : Line) (items : List Item) (available : Option Int) (gap : Int) : Int :=
  freeSpace (line.roomFor available gap) (started (line.grows available gap) items)

/-- The states in which flexing a line makes passes. -/
def rounds (line : Line) (items : List Item) (available : Option Int) (gap : Int) :
    List (Line × List Item) :=
  visits (line.grows available gap) (line.initialSpace items available gap)
    (line.roomFor available gap) (items.length + 1)
    (line.opened (line.grows available gap) items) (started (line.grows available gap) items)

section

variable {available : Option Int} {gap : Int}

theorem tallied_start (line : Line) (items : List Item) (growing : Bool) :
    Tallied (line.opened growing items) (started growing items) :=
  tallied_opened line (started growing items)

/-- Every pass of a line that flexes within the range does that, and hands out what it can of
the space that was free in the beginning. -/
theorem Unclipped.each (unclipped : Unclipped ⟨line, items⟩ available gap) :
    ∀ state ∈ line.rounds items available gap,
      UnclippedPass (line.grows available gap) (line.initialSpace items available gap)
          (line.roomFor available gap) state.1 state.2 ∧
        line.initialSpace items available gap = line.roomFor available gap -
          sumInFlow Item.claim (started (line.grows available gap) items) := by
  have each := (unclippedPasses_iff _ _ _).1 unclipped.passes
  exact fun state member => ⟨each state member, (each _ (mem_visits_start member)).free⟩

/-- The first pass finds free what the items do not claim in the beginning. -/
theorem Unclipped.initialSpace_eq (unclipped : Unclipped ⟨line, items⟩ available gap)
    (some : ∃ item ∈ started (line.grows available gap) items, item.frozen = false) :
    line.initialSpace items available gap = line.roomFor available gap -
      sumInFlow Item.claim (started (line.grows available gap) items) := by
  have more := (lt_length_iff (tallied_start line items _)).2 some
  refine (unclipped.each (line.opened (line.grows available gap) items,
    started (line.grows available gap) items) ?_).2
  rw [rounds, visits, if_neg (Nat.not_le_of_lt more)]
  exact List.mem_cons_self

theorem sumInFlow_flex (line : Line) (items : List Item) (available : Option Int) (gap : Int) :
    sumInFlow Item.target (line.flex items available gap).2 =
      sumInFlow Item.target (line.passed items available gap) := by
  rw [flex_snd, sumInFlow, List.map_map]
  rfl

/-- **What every pass within the range keeps holds wherever one is made, and in the end.** -/
theorem Unclipped.rounds_keep (unclipped : Unclipped ⟨line, items⟩ available gap)
    (grows : line.grows available gap = growing) (Inv : List Item → Prop)
    (start : Inv (started growing items))
    (step : ∀ (before : Line) (others : List Item), Tallied before others →
      (∃ item ∈ others, item.frozen = false) →
      line.initialSpace items available gap = line.roomFor available gap -
        sumInFlow Item.claim (started growing items) →
      UnclippedPass growing (line.initialSpace items available gap)
        (line.roomFor available gap) before others → Inv others →
      Inv (flexPass growing (line.initialSpace items available gap)
        (line.roomFor available gap) before others).2) :
    (∀ state ∈ line.rounds items available gap, (∃ item ∈ state.2, item.frozen = false) ∧
      Inv state.2) ∧ Inv (line.passed items available gap) := by
  subst grows
  obtain ⟨visited, ends⟩ := visits_keep
    (fun before others => UnclippedPass _ (line.initialSpace items available gap) _ before others ∧
      line.initialSpace items available gap = _) Inv
    (fun before others tallied some good => step before others tallied some good.2 good.1)
    (items.length + 1) (tallied_start line items _) unclipped.each start
  exact ⟨fun state member => (visited state member).2, ends⟩

/-- What the items take in the end is settled by a pass that freezes all of them, or none. -/
theorem Unclipped.passed_close (unclipped : Unclipped ⟨line, items⟩ available gap)
    (grows : line.grows available gap = growing) (Inv : List Item → Prop) (Done : Int → Prop)
    (start : Inv (started growing items))
    (step : ∀ (before : Line) (others : List Item), Tallied before others →
      (∃ item ∈ others, item.frozen = false) →
      line.initialSpace items available gap = line.roomFor available gap -
        sumInFlow Item.claim (started growing items) →
      UnclippedPass growing (line.initialSpace items available gap)
        (line.roomFor available gap) before others → Inv others →
      let next := flexPass growing (line.initialSpace items available gap)
        (line.roomFor available gap) before others
      before.frozen < next.1.frozen ∧ Inv next.2 ∨
        Done (sumInFlow Item.target next.2) ∧
          (next.1.frozen = before.frozen ∨ ∀ item ∈ next.2, item.frozen = true))
    (ends : ∀ others, Inv others → (∀ item ∈ others, item.frozen = true) →
      Done (sumInFlow Item.target others)) :
    Done (sumInFlow Item.target (line.passed items available gap)) := by
  subst grows
  have length : (started (line.grows available gap) items).length = items.length :=
    List.length_map _
  exact flexPasses_close
    (fun before others => UnclippedPass _ (line.initialSpace items available gap) _ before others ∧
      line.initialSpace items available gap = _) Inv Done
    (fun before others tallied some good => step before others tallied some good.2 good.1)
    ends (items.length + 1) (tallied_start line items _) (by omega) unclipped.each start

end

end Line

end FlexLayout
