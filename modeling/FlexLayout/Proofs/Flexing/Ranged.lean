/-
# FlexLayout.Proofs.Flexing.Ranged -- when flexing cuts nothing off

What flexing computes is exact (`Line.Unclipped`) if none of its steps leaves the 32-bit
range.  `Line.Ranged` lists these steps: the gaps are taken from the sizes; each pass takes
what the items claim from the room, one after the other, adds the shares to the base sizes, and
adds up the adjustments that the limits ask for; and the line adds up the sizes of the items in
the order in which they are frozen.  Each is a condition on the value that the step would have
if the range had no ends.

One pass is exact if its open items are in flow (`RangedPass.unclipped`).  They are in every
pass of a line, since items out of flow are frozen when flexing begins (`openInFlow_rounds`).
So a line whose steps stay within the range is unclipped (`Ranged.unclipped`).
-/
import FlexLayout.Proofs.Flexing.Counting

namespace FlexLayout

set_option autoImplicit false

namespace Line

section

variable {growing : Bool} {initial room : Int} {line : Line} {items : List Item}

/-! ## One pass -/

/-- No step of a pass leaves the range. -/
structure RangedPass (growing : Bool) (initial room : Int) (line : Line) (items : List Item) :
    Prop where
  free : Pixel.Running
    (room :: (items.filter fun item => !item.outOfFlow).map fun item => -item.claim)
  magnitude : HandsOut growing initial room items → growing = false →
    Pixel.InRange (passSpace growing initial room items).natAbs
  given : HandsOut growing initial room items →
    ∀ item ∈ divide growing (shareOf growing (passSpace growing initial room items) items) items,
      item.frozen = false → Pixel.InRange item.target
  held : ∀ item ∈ (dealt growing (passSpace growing initial room items) line items).2,
    item.frozen = false → Pixel.InRange (item.hold item.target - item.target)
  adjusted : Pixel.Running
    (((dealt growing (passSpace growing initial room items) line items).2.filter
      fun item => !item.frozen).map fun item => item.hold item.target - item.target)

instance (growing : Bool) (initial room : Int) (line : Line) (items : List Item) :
    Decidable (RangedPass growing initial room line items) :=
  decidable_of_iff
    (Pixel.Running
        (room :: (items.filter fun item => !item.outOfFlow).map fun item => -item.claim) ∧
      (HandsOut growing initial room items → growing = false →
        Pixel.InRange (passSpace growing initial room items).natAbs) ∧
      (HandsOut growing initial room items →
        ∀ item ∈ divide growing (shareOf growing (passSpace growing initial room items) items) items,
          item.frozen = false → Pixel.InRange item.target) ∧
      (∀ item ∈ (dealt growing (passSpace growing initial room items) line items).2,
        item.frozen = false → Pixel.InRange (item.hold item.target - item.target)) ∧
      Pixel.Running
        (((dealt growing (passSpace growing initial room items) line items).2.filter
          fun item => !item.frozen).map fun item => item.hold item.target - item.target))
    ⟨fun ⟨free, magnitude, given, held, adjusted⟩ => ⟨free, magnitude, given, held, adjusted⟩,
      fun ⟨free, magnitude, given, held, adjusted⟩ => ⟨free, magnitude, given, held, adjusted⟩⟩

/-- The free space is exact, and a number of pixels. -/
theorem RangedPass.freeSpace_eq (ranged : RangedPass growing initial room line items) :
    freeSpace room items = room - sumInFlow Item.claim items ∧
      Pixel.InRange (freeSpace room items) := by
  have exact := ranged.free.foldl_add_cons
  have inRange := ranged.free.inRange_cons
  have claims := sumInFlow_neg Item.claim items
  rw [sumInFlow_eq_sum_filter] at claims
  rw [← freeSpace_eq_foldl] at exact
  constructor
  · rw [exact, claims]
    omega
  · rw [exact]
    exact inRange

/-- What a pass hands out is no more than the free space, so it is in the range as well. -/
theorem inRange_passSpace (growing : Bool) (initial : Int)
    (free : Pixel.InRange (freeSpace room items)) :
    Pixel.InRange (passSpace growing initial room items) := by
  simp only [passSpace]
  split
  · split
    · rename_i less
      unfold Pixel.InRange at free ⊢
      omega
    · exact free
  · exact free

/-- Items whose targets stay within the range take exactly their shares. -/
theorem handOut_eq_divide_of_inRange {share : Share}
    (range : ∀ item ∈ divide growing share items, item.frozen = false → Pixel.InRange item.target) :
    handOut growing share items = divide growing share items := by
  induction items generalizing share with
  | nil => rfl
  | cons item rest ih =>
      cases done : item.frozen with
      | true =>
          rw [divide_frozen done] at range ⊢
          rw [handOut_frozen done, ih (List.forall_mem_cons.1 range).2]
      | false =>
          rw [divide_open done] at range ⊢
          obtain ⟨here, later⟩ := List.forall_mem_cons.1 range
          have target := here done
          rw [handOut_open done, ih later]
          congr 1
          simp only [Item.give, Item.receive] at target ⊢
          cases growing with
          | true => rw [if_pos rfl, if_pos rfl, Pixel.add_of_inRange target]
          | false =>
              rw [if_neg Bool.false_ne_true, if_neg Bool.false_ne_true, Pixel.sub_of_inRange target]

theorem inFlow_dealt (free : Int)
    (flow : ∀ item ∈ items, item.frozen = false → item.outOfFlow = false) :
    ∀ item ∈ (dealt growing free line items).2, item.frozen = false → item.outOfFlow = false := by
  intro last member open_
  rcases dealt_cases growing free line items with ⟨-, same⟩ | ⟨-, -, same⟩ | ⟨-, -, -, same⟩
  · rw [same] at member
    exact flow last member open_
  · rw [same] at member
    obtain ⟨item, among, waits⟩ := exists_of_mem_right (handOut_waits growing _ items) member
    rw [waits.outOfFlow]
    exact flow item among (waits.frozen.symm.trans open_)
  · rw [same] at member
    obtain ⟨waiting, waits, all | none⟩ := apportion_cases growing free line items
    · rw [all, freeze_snd] at member
      obtain ⟨item, -, rfl⟩ := List.mem_map.1 member
      rw [Item.freezeIf_always] at open_
      cases open_
    · rw [none] at member
      obtain ⟨item, among, waits⟩ := exists_of_mem_right waits member
      rw [waits.outOfFlow]
      exact flow item among (waits.frozen.symm.trans open_)

/-- **A pass none of whose steps leaves the range is exact.** -/
theorem RangedPass.unclipped (ranged : RangedPass growing initial room line items)
    (flow : ∀ item ∈ items, item.frozen = false → item.outOfFlow = false) :
    UnclippedPass growing initial room line items := by
  obtain ⟨free, inRange⟩ := ranged.freeSpace_eq
  constructor
  · exact free
  · exact inRange_passSpace growing initial inRange
  · intro hands shrinks
    exact Pixel.saturate_of_inRange (ranged.magnitude hands shrinks)
  · intro hands
    exact handOut_eq_divide_of_inRange (ranged.given hands)
  · -- Only items that are still open when their targets are held are adjusted.
    have exact : ((dealt growing (passSpace growing initial room items) line items).2.filter
        fun item => !item.frozen).map (fun item => Pixel.sub (item.hold item.target) item.target) =
        ((dealt growing (passSpace growing initial room items) line items).2.filter
          fun item => !item.frozen).map fun item => item.hold item.target - item.target := by
      apply List.map_congr_left
      intro item member
      obtain ⟨among, open_⟩ := List.mem_filter.1 member
      exact Pixel.sub_of_inRange (ranged.held item among (by simpa using open_))
    rw [totalViolation_eq, exact, ranged.adjusted.foldl_add]
    exact sum_adjustments (inFlow_dealt _ flow)

end

/-! ## Flexing a line -/

/-- No step of flexing a line leaves the range. -/
structure Ranged (filled : FilledLine) (available : Option Int) (gap : Int) : Prop where
  own : Pixel.InRange (filled.line.main - Pixel.gapsBetween filled.line.inFlow gap)
  room : Pixel.InRange
    (available.getD filled.line.main - Pixel.gapsBetween filled.line.inFlow gap)
  passes : ∀ state ∈ filled.line.rounds filled.items available gap,
    RangedPass (filled.line.grows available gap)
      (filled.line.initialSpace filled.items available gap) (filled.line.roomFor available gap)
      state.1 state.2
  used : Pixel.Running (filled.line.countingOrder filled.items available gap ++
    [Pixel.gapsBetween filled.line.inFlow gap])

instance (filled : FilledLine) (available : Option Int) (gap : Int) :
    Decidable (Ranged filled available gap) :=
  decidable_of_iff
    (Pixel.InRange (filled.line.main - Pixel.gapsBetween filled.line.inFlow gap) ∧
      Pixel.InRange
        (available.getD filled.line.main - Pixel.gapsBetween filled.line.inFlow gap) ∧
      (∀ state ∈ filled.line.rounds filled.items available gap,
        RangedPass (filled.line.grows available gap)
          (filled.line.initialSpace filled.items available gap)
          (filled.line.roomFor available gap) state.1 state.2) ∧
      Pixel.Running (filled.line.countingOrder filled.items available gap ++
        [Pixel.gapsBetween filled.line.inFlow gap]))
    ⟨fun ⟨own, room, passes, used⟩ => ⟨own, room, passes, used⟩,
      fun ⟨own, room, passes, used⟩ => ⟨own, room, passes, used⟩⟩

section

variable {available : Option Int} {gap : Int}

/-- **Every open item that a pass finds is in flow.** -/
theorem openInFlow_rounds (line : Line) (items : List Item) (available : Option Int) (gap : Int) :
    ∀ state ∈ line.rounds items available gap,
      ∀ item ∈ state.2, item.frozen = false → item.outOfFlow = false := by
  have start : ∀ item ∈ started (line.grows available gap) items,
      item.frozen = false → item.outOfFlow = false := by
    rw [started, List.forall_mem_map]
    intro item _ open_
    rcases item.start_cases (line.grows available gap) with ⟨-, same⟩ | ⟨inFlow, -, same⟩
    · rw [same] at open_
      cases open_
    · rw [same]
      exact inFlow
  -- Items out of flow are frozen from the start, and no pass opens an item again.
  obtain ⟨visited, -⟩ := visits_keep (fun _ _ => True)
    (fun others => ∀ item ∈ others, item.frozen = false → item.outOfFlow = false)
    (fun before others _ _ _ flow last member open_ => by
      obtain ⟨item, among, passed⟩ := exists_of_mem_right
        (flexPass_passed (line.grows available gap) (line.initialSpace items available gap)
          (line.roomFor available gap) before others) member
      cases passed with
      | frozen => exact flow last among open_
      | weightless => cases open_
      | held was =>
          obtain ⟨violation, held⟩ := Item.exists_holdTarget { item with target := _ }
          rw [held]
          exact flow item among was)
    (items.length + 1) (tallied_start line items _) (fun _ _ => trivial) start
  intro state member
  exact (visited state member).2.2

/-- **A line none of whose steps leaves the range is flexed exactly.** -/
theorem Ranged.unclipped {filled : FilledLine} (ranged : Ranged filled available gap) :
    Unclipped filled available gap := by
  constructor
  · exact Pixel.sub_of_inRange ranged.own
  · exact Pixel.sub_of_inRange ranged.room
  · apply (unclippedPasses_iff _ _ _).2
    intro state member
    apply (ranged.passes state member).unclipped
    exact openInFlow_rounds filled.line filled.items available gap state member
  · exact used_flex_of_running filled.line filled.items available gap ranged.used

end

end Line

end FlexLayout
