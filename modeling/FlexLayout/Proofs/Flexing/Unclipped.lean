/-
# FlexLayout.Proofs.Flexing.Unclipped -- lines that flex within the range

Flexing adds up sizes with saturation.  As long as it comes to no end of the range, each of
its sums is the exact one: what is free, what the items receive, how much holding them
adjusts, and what the line has used in the end.  `UnclippedPass` says so of one pass and
`Unclipped` of all that flexing a line comes to.  It is a condition on one run and can be
evaluated; no bound on the items stands for it.  A run that keeps each of its steps within the
range meets it (`Ranged.unclipped`).

`Gathered` is what flexing may rely on: measured items, on a line that counts those in flow
and has their hypothetical sizes and gaps for its own size.  Items that are broken into
lines are gathered (`gathered_breakAll`).
-/
import FlexLayout.Proofs.Flexing.Rounds
import FlexLayout.Proofs.Stages.Breaking

namespace FlexLayout

set_option autoImplicit false

namespace Line

/-! ## Lines of measured items -/

/-- A line as measured items make it. -/
structure Gathered (gap : Int) (filled : FilledLine) : Prop where
  fit : ∀ item ∈ filled.items, item.Fit
  factors : ∀ item ∈ filled.items, 0 ≤ item.grow.raw ∧ 0 ≤ item.shrink.raw
  inFlow : filled.line.inFlow = filled.items.countP fun item => !item.outOfFlow
  main : filled.line.main = sumInFlow Item.hypothetical filled.items +
    Pixel.gapsBetween filled.line.inFlow gap

instance (item : Item) : Decidable item.Fit :=
  decidable_of_iff (Pixel.InRange item.base ∧ item.hypothetical = item.hold item.base)
    ⟨fun ⟨base, hypothetical⟩ => ⟨base, hypothetical⟩,
      fun ⟨base, hypothetical⟩ => ⟨base, hypothetical⟩⟩

instance (gap : Int) (filled : FilledLine) : Decidable (Gathered gap filled) :=
  decidable_of_iff
    ((∀ item ∈ filled.items, item.Fit) ∧
      (∀ item ∈ filled.items, 0 ≤ item.grow.raw ∧ 0 ≤ item.shrink.raw) ∧
      filled.line.inFlow = filled.items.countP (fun item => !item.outOfFlow) ∧
      filled.line.main = sumInFlow Item.hypothetical filled.items +
        Pixel.gapsBetween filled.line.inFlow gap)
    ⟨fun ⟨fit, factors, inFlow, main⟩ => ⟨fit, factors, inFlow, main⟩,
      fun ⟨fit, factors, inFlow, main⟩ => ⟨fit, factors, inFlow, main⟩⟩

/-- **Measured items are gathered on the lines that they are broken into.** -/
theorem gathered_breakAll (rule : Breaking) {items : List Item} (fit : ∀ item ∈ items, item.Fit)
    (factors : ∀ item ∈ items, 0 ≤ item.grow.raw ∧ 0 ≤ item.shrink.raw)
    (few : items.length < 2147483648) :
    ∀ filled ∈ breakAll rule items, Gathered rule.gap filled := by
  intro filled member
  have sub : filled.items.Sublist items := by
    rw [← items_flatMap_breakAll rule items, List.flatMap_def]
    exact List.sublist_flatten_of_mem (List.mem_map_of_mem member)
  have counted := (sound_breakAll rule items filled member).inFlow
  have most : filled.line.inFlow ≤ items.length := by
    rw [counted]
    exact Nat.le_trans List.countP_le_length sub.length_le
  refine ⟨fun item inside => fit item (sub.subset inside),
    fun item inside => factors item (sub.subset inside), counted, ?_⟩
  rw [gapsBetween_eq (by omega), sumInFlow_eq_sum_filter]
  exact main_breakAll rule items filled member

/-! ## Sums within the range -/

def HandsOut (growing : Bool) (initial room : Int) (items : List Item) : Prop :=
  passSpace growing initial room items ≠ 0 ∧ Weighty growing items

instance (growing : Bool) (initial room : Int) (items : List Item) :
    Decidable (HandsOut growing initial room items) :=
  inferInstanceAs (Decidable (_ ∧ (_ ∨ _)))

/-- No sum of a pass is cut off at an end of the range. -/
structure UnclippedPass (growing : Bool) (initial room : Int) (line : Line)
    (items : List Item) : Prop where
  free : freeSpace room items = room - sumInFlow Item.claim items
  space : Pixel.InRange (passSpace growing initial room items)
  magnitude : HandsOut growing initial room items → growing = false →
    Pixel.magnitude (passSpace growing initial room items) =
      (passSpace growing initial room items).natAbs
  given : HandsOut growing initial room items →
    handOut growing (shareOf growing (passSpace growing initial room items) items) items =
      divide growing (shareOf growing (passSpace growing initial room items) items) items
  adjusted : totalViolation (dealt growing (passSpace growing initial room items) line items).2 =
    sumInFlow Item.held (dealt growing (passSpace growing initial room items) line items).2 -
      sumInFlow Item.target (dealt growing (passSpace growing initial room items) line items).2

instance (growing : Bool) (initial room : Int) (line : Line) (items : List Item) :
    Decidable (UnclippedPass growing initial room line items) :=
  decidable_of_iff
    (freeSpace room items = room - sumInFlow Item.claim items ∧
      Pixel.InRange (passSpace growing initial room items) ∧
      (HandsOut growing initial room items → growing = false →
        Pixel.magnitude (passSpace growing initial room items) =
          (passSpace growing initial room items).natAbs) ∧
      (HandsOut growing initial room items →
        handOut growing (shareOf growing (passSpace growing initial room items) items) items =
          divide growing (shareOf growing (passSpace growing initial room items) items) items) ∧
      totalViolation (dealt growing (passSpace growing initial room items) line items).2 =
        sumInFlow Item.held (dealt growing (passSpace growing initial room items) line items).2 -
          sumInFlow Item.target (dealt growing (passSpace growing initial room items) line items).2)
    ⟨fun ⟨free, space, magnitude, given, adjusted⟩ => ⟨free, space, magnitude, given, adjusted⟩,
      fun ⟨free, space, magnitude, given, adjusted⟩ => ⟨free, space, magnitude, given, adjusted⟩⟩

def UnclippedPasses (growing : Bool) (initial room : Int) : Nat → Line → List Item → Prop
  | 0, _, _ => True
  | n + 1, line, items =>
      items.length ≤ line.frozen ∨
        UnclippedPass growing initial room line items ∧
          let next := flexPass growing initial room line items
          UnclippedPasses growing initial room n next.1 next.2

instance decidableUnclippedPasses (growing : Bool) (initial room : Int) (n : Nat) (line : Line)
    (items : List Item) : Decidable (UnclippedPasses growing initial room n line items) :=
  match n with
  | 0 => isTrue trivial
  | n + 1 =>
      have := decidableUnclippedPasses growing initial room n
        (flexPass growing initial room line items).1 (flexPass growing initial room line items).2
      inferInstanceAs (Decidable (_ ∨ _ ∧ _))

/-- No sum of flexing a line is cut off at an end of the range. -/
structure Unclipped (filled : FilledLine) (available : Option Int) (gap : Int) : Prop where
  own : Pixel.sub filled.line.main (Pixel.gapsBetween filled.line.inFlow gap) =
    filled.line.main - Pixel.gapsBetween filled.line.inFlow gap
  room : filled.line.roomFor available gap =
    available.getD filled.line.main - Pixel.gapsBetween filled.line.inFlow gap
  passes :
    let growing := filled.line.grows available gap
    let room := filled.line.roomFor available gap
    UnclippedPasses growing (freeSpace room (started growing filled.items)) room
      (filled.items.length + 1) (filled.line.opened growing filled.items)
      (started growing filled.items)
  used : (filled.line.flex filled.items available gap).1.used =
    sumInFlow Item.target (filled.line.flex filled.items available gap).2 +
      Pixel.gapsBetween filled.line.inFlow gap

instance (filled : FilledLine) (available : Option Int) (gap : Int) :
    Decidable (Unclipped filled available gap) :=
  decidable_of_iff
    (Pixel.sub filled.line.main (Pixel.gapsBetween filled.line.inFlow gap) =
        filled.line.main - Pixel.gapsBetween filled.line.inFlow gap ∧
      filled.line.roomFor available gap =
        available.getD filled.line.main - Pixel.gapsBetween filled.line.inFlow gap ∧
      UnclippedPasses (filled.line.grows available gap)
        (freeSpace (filled.line.roomFor available gap)
          (started (filled.line.grows available gap) filled.items))
        (filled.line.roomFor available gap) (filled.items.length + 1)
        (filled.line.opened (filled.line.grows available gap) filled.items)
        (started (filled.line.grows available gap) filled.items) ∧
      (filled.line.flex filled.items available gap).1.used =
        sumInFlow Item.target (filled.line.flex filled.items available gap).2 +
          Pixel.gapsBetween filled.line.inFlow gap)
    ⟨fun ⟨own, room, passes, used⟩ => ⟨own, room, passes, used⟩,
      fun ⟨own, room, passes, used⟩ => ⟨own, room, passes, used⟩⟩

section

variable {growing : Bool} {initial room : Int} {line : Line} {items : List Item}

/-- A pass that has space hands all of it out by weight, if there is any. -/
theorem UnclippedPass.flexPass_eq (unclipped : UnclippedPass growing initial room line items)
    (whole : 1024 ≤ factorSum growing items) (space : freeSpace room items ≠ 0)
    (weighty : Weighty growing items) :
    let handed := handOut growing (shareOf growing (freeSpace room items) items) items
    flexPass growing initial room line items = settled (line, handed) ∧
      totalViolation handed = sumInFlow Item.held handed - sumInFlow Item.target handed := by
  have adjusted := unclipped.adjusted
  rw [passSpace_of_whole initial room whole, dealt, if_neg space,
    apportion_of_weighty weighty] at adjusted
  refine ⟨?_, adjusted⟩
  rw [Line.flexPass_eq, passSpace_of_whole initial room whole, dealt, if_neg space,
    apportion_of_weighty weighty]

/-- **What a pass hands out is added to what the items claim.** -/
theorem UnclippedPass.sumInFlow_handOut_passSpace
    (unclipped : UnclippedPass growing initial room line items)
    (open_ : ∀ item ∈ items, item.frozen = false →
      item.outOfFlow = false ∧ 0 ≤ item.weight growing)
    (weighs : 0 < (shareOf growing (passSpace growing initial room items) items).total)
    (some : passSpace growing initial room items ≠ 0)
    (side : if growing then 0 ≤ passSpace growing initial room items
      else passSpace growing initial room items ≤ 0) :
    sumInFlow Item.target
        (handOut growing (shareOf growing (passSpace growing initial room items) items) items) =
      sumInFlow Item.claim items + passSpace growing initial room items := by
  have hands : HandsOut growing initial room items := by
    refine ⟨some, ?_⟩
    cases growing with
    | true => exact .inl rfl
    | false => exact .inr weighs
  have magnitude := unclipped.magnitude hands
  rw [unclipped.given hands]
  have space := unclipped.space
  generalize passSpace growing initial room items = free at magnitude space weighs side ⊢
  obtain ⟨amount, most⟩ : (shareOf growing free items).amount = free.natAbs ∧
      (free.natAbs : Int) ≤ 2147483647 := by
    unfold Pixel.InRange at space
    cases growing with
    | true =>
        rw [if_pos rfl] at side
        refine ⟨?_, by omega⟩
        show free = _
        omega
    | false =>
        have exact := magnitude rfl
        refine ⟨exact, ?_⟩
        simp only [Pixel.magnitude, Pixel.saturate] at exact
        omega
  rw [sumInFlow_divide_shareOf (by omega) weighs open_, amount]
  cases growing with
  | true =>
      rw [if_pos rfl] at side ⊢
      omega
  | false =>
      rw [if_neg Bool.false_ne_true] at side ⊢
      omega

/-- **A pass that hands out all of the free space brings the items to the room.** -/
theorem UnclippedPass.sumInFlow_handOut
    (unclipped : UnclippedPass growing initial room line items)
    (whole : 1024 ≤ factorSum growing items)
    (open_ : ∀ item ∈ items, item.frozen = false →
      item.outOfFlow = false ∧ 0 ≤ item.weight growing)
    (weighs : 0 < (shareOf growing (freeSpace room items) items).total)
    (side : if growing then sumInFlow Item.claim items < room
      else room < sumInFlow Item.claim items) :
    sumInFlow Item.target
      (handOut growing (shareOf growing (freeSpace room items) items) items) = room := by
  have free := unclipped.free
  have sum := unclipped.sumInFlow_handOut_passSpace open_
  rw [passSpace_of_whole initial room whole] at sum
  have space : freeSpace room items ≠ 0 := by
    cases growing <;> simp at side <;> omega
  rw [sum weighs space (by cases growing <;> simp at side ⊢ <;> omega)]
  omega

variable {filled : FilledLine} {available : Option Int} {gap : Int}

/-- What the items of a gathered line ask for, in terms of the line and its gaps. -/
theorem Gathered.sum_eq (gathered : Gathered gap filled) :
    sumInFlow Item.hypothetical filled.items =
      filled.line.main - Pixel.gapsBetween filled.line.inFlow gap := by
  have main := gathered.main
  omega

theorem Unclipped.grows_eq (unclipped : Unclipped filled available gap) :
    filled.line.grows available gap =
      decide (filled.line.main < available.getD filled.line.main) := by
  rw [grows, unclipped.own, unclipped.room]
  refine decide_eq_decide.2 ⟨fun less => ?_, fun less => ?_⟩ <;> omega

/-- **What every pass within the range keeps, or ends with, holds of the flexed items.** -/
theorem Unclipped.flex_ends {line : Line} {items : List Item}
    (unclipped : Unclipped ⟨line, items⟩ available gap) {growing : Bool}
    (grows : line.grows available gap = growing) (Inv Done : List Item → Prop)
    (start : Inv (started growing items))
    (step : ∀ (initial : Int) (before : Line) (others : List Item), Tallied before others →
      (∃ item ∈ others, item.frozen = false) → Inv others →
      List.Forall₂ Item.Stays others (line.passed items available gap) →
      UnclippedPass growing initial (line.roomFor available gap) before others →
      let next := flexPass growing initial (line.roomFor available gap) before others
      before.frozen < next.1.frozen ∧
        (Inv next.2 ∨ Done next.2 ∧ ∀ item ∈ next.2, item.frozen = true)) :
    (∀ item ∈ (line.flex items available gap).2, item.frozen = true) ∧
      (Inv (line.flex items available gap).2 ∨ Done (line.flex items available gap).2) := by
  subst grows
  have ends := Line.flex_ends line available gap
    (fun n before others => Inv others ∧
      UnclippedPasses (line.grows available gap)
        (freeSpace (line.roomFor available gap) (started (line.grows available gap) items))
        (line.roomFor available gap) n before others) Done ⟨start, unclipped.passes⟩
    fun n before others tallied some state stays => by
      obtain ⟨inv, left⟩ := state
      have more : ¬others.length ≤ before.frozen :=
        Nat.not_le_of_lt ((lt_length_iff tallied).2 some)
      obtain ⟨pass, rest⟩ := left.resolve_left more
      have next := step _ before others tallied some inv stays pass
      exact next.imp_right (Or.imp_left fun kept => ⟨kept, rest⟩)
  obtain ⟨-, frozen, kept | done⟩ := ends
  · obtain ⟨-, -, inv, -⟩ := kept
    exact ⟨frozen, .inl inv⟩
  · exact ⟨frozen, .inr done⟩

theorem Gathered.flexible (gathered : Gathered gap filled)
    (bounded : ∀ item ∈ filled.items, item.outOfFlow = false → item.Bounded) :
    ∀ item ∈ filled.items, item.Flexible := by
  intro item member
  obtain ⟨grow, shrink⟩ := gathered.factors item member
  exact ⟨gathered.fit item member, bounded item member, grow, shrink⟩

end

end Line

end FlexLayout
