/-
# FlexLayout.Proofs.Convergence -- the passes freeze every item

Every pass freezes an item, so as many passes as there are items freeze all of them, and
nothing is left over that would be frozen with space still to be handed out
(`flex_converges`).

For this the items that can flex need their limits in order.  An item whose minimum is above
its maximum can be lowered to that minimum, and is then taken for one that was raised.  If
the targets were lowered on the whole, a pass looks for items at their maximum and finds none;
it freezes nothing, and so do the passes that follow (`flex_stalls`).
-/
import FlexLayout.Proofs.Flexing.Ranged

namespace FlexLayout

set_option autoImplicit false

namespace Line

variable {line : Line} {items : List Item} {available : Option Int} {gap : Int}

/-- **Every pass freezes an item**, if the items that can flex have their limits in order. -/
theorem Unclipped.rounds_progress (unclipped : Unclipped ⟨line, items⟩ available gap)
    (ordered : ∀ item ∈ items,
      (item.outOfFlow || item.inflexible (line.grows available gap)) = true ∨ item.Bounded) :
    ∀ state ∈ line.rounds items available gap,
      state.1.frozen < (flexPass (line.grows available gap) (line.initialSpace items available gap)
        (line.roomFor available gap) state.1 state.2).1.frozen := by
  have begins : ∀ item ∈ started (line.grows available gap) items,
      item.frozen = false → item.Bounded := by
    intro after member open_
    obtain ⟨item, among, rfl⟩ := List.mem_map.1 member
    obtain ⟨inFlow, flexes, same⟩ := Item.start_open open_
    rw [same]
    exact (ordered item among).resolve_left (by simp [inFlow, flexes])
  obtain ⟨visited, -⟩ := visits_keep
    (UnclippedPass (line.grows available gap) (line.initialSpace items available gap)
      (line.roomFor available gap)) (fun others => ∀ item ∈ others, item.frozen = false → item.Bounded)
    (fun before others _ _ _ bounded after member open_ => by
      obtain ⟨item, among, passed⟩ := exists_of_mem_right (flexPass_passed _ _ _ before others) member
      cases passed with
      | frozen => exact bounded _ among open_
      | weightless => cases open_
      | @held was size =>
          obtain ⟨violation, held⟩ := Item.exists_holdTarget { item with target := size }
          rw [held]
          exact bounded item among was)
    (items.length + 1) (tallied_start line items _) (fun state member => (unclipped.each state member).1)
    begins
  intro state member
  obtain ⟨tallied, some, bounded⟩ := visited state member
  refine (flexPass_progress tallied some (unclipped.each state member).1).resolve_right ?_
  rintro ⟨item, among, open_, torn⟩
  exact torn (bounded item among open_)

/-- **The passes freeze every item**, if those that can flex have their limits in order: each
pass freezes one, there are no more passes than items, and no item is left for the end. -/
theorem flex_converges {filled : FilledLine} (unclipped : Unclipped filled available gap)
    (ordered : ∀ item ∈ filled.items,
      (item.outOfFlow || item.inflexible (filled.line.grows available gap)) = true ∨
        item.Bounded) :
    let growing := filled.line.grows available gap
    let initial := filled.line.initialSpace filled.items available gap
    let room := filled.line.roomFor available gap
    (∀ state ∈ filled.line.rounds filled.items available gap,
      state.1.frozen < (flexPass growing initial room state.1 state.2).1.frozen) ∧
    (filled.line.rounds filled.items available gap).length ≤ filled.items.length ∧
    (flexPasses growing initial room filled.items.length (filled.line.opened growing filled.items)
      (started growing filled.items)).1.frozen = filled.items.length ∧
    ∀ item ∈ filled.line.passed filled.items available gap, item.frozen = true := by
  obtain ⟨line, items⟩ := filled
  dsimp only at ordered ⊢
  have progress := unclipped.rounds_progress ordered
  have tallied := tallied_start line items (line.grows available gap)
  have length : (started (line.grows available gap) items).length = items.length :=
    List.length_map _
  have most := length_visits_le _ tallied progress
  -- A pass for each item is enough, so the last of the passes that are allowed is not needed.
  have frozen := frozen_flexPasses items.length tallied (by omega)
    fun state member => progress state (mem_visits_succ _ member)
  have ends := frozen_flexPasses (items.length + 1) tallied (by omega) progress
  have all := tallied.flexPasses (line.grows available gap)
    (line.initialSpace items available gap) (line.roomFor available gap) (items.length + 1)
  rw [length] at most frozen ends
  refine ⟨progress, Nat.le_trans (Nat.le_add_left _ _) most, frozen, ?_⟩
  refine all_frozen_of_le all (Nat.le_of_eq (Eq.trans ?_ ends.symm))
  rw [← length]
  exact (flexPasses_stays _ _ _ _ _ _).length_eq.symm

/-- Two items reach their maximum in one pass and the third one in the next; the last one has
its minimum above its maximum, but it cannot grow. -/
theorem flex_converges_mixed :
    let items : List Item :=
      [{ grow := 1, minMain := 60, maxMain := some 70, hypothetical := 60 },
        { grow := 1, maxMain := some 25 }, { grow := 1, maxMain := some 30 },
        { minMain := 10, maxMain := some 5, hypothetical := 10 }]
    let filled : FilledLine := ⟨{ count := 4, inFlow := 4, main := 85 }, items⟩
    Unclipped filled (some 200) 5 ∧
      (∀ item ∈ items, (item.outOfFlow || item.inflexible (filled.line.grows (some 200) 5)) = true ∨
        item.Bounded) ∧
      (filled.line.rounds items (some 200) 5).length = 2 ∧
      ∀ item ∈ filled.line.passed items (some 200) 5, item.frozen = true := by
  intro items filled
  have unclipped : Unclipped filled (some 200) 5 := Ranged.unclipped (by decide +kernel)
  have ordered : ∀ item ∈ items,
      (item.outOfFlow || item.inflexible (filled.line.grows (some 200) 5)) = true ∨
        item.Bounded := by decide
  obtain ⟨-, -, -, all⟩ := flex_converges unclipped ordered
  exact ⟨unclipped, ordered, by decide +kernel, all⟩

/-- **A line can stall** if the minimum of an item is above its maximum: of the hundred pixels
the first item is given fifty and lowered to its minimum of ten, no pass freezes anything, and
in the end the second item is left with its fifty, although forty pixels more are free. -/
theorem flex_stalls :
    let items : List Item :=
      [{ grow := 1, minMain := 10, maxMain := some 5, hypothetical := 10 }, { grow := 1 }]
    let filled : FilledLine := ⟨{ count := 2, inFlow := 2, main := 10 }, items⟩
    let growing := filled.line.grows (some 100) 0
    let initial := filled.line.initialSpace items (some 100) 0
    let room := filled.line.roomFor (some 100) 0
    let flexed := filled.line.flex items (some 100) 0
    Gathered 0 filled ∧ Unclipped filled (some 100) 0 ∧
      (∀ state ∈ filled.line.rounds items (some 100) 0,
        (flexPass growing initial room state.1 state.2).1.frozen = state.1.frozen) ∧
      (filled.line.rounds items (some 100) 0).length = 3 ∧
      (∀ item ∈ filled.line.passed items (some 100) 0, item.frozen = false) ∧
      flexed.2.map Item.target = [10, 50] ∧ flexed.1.used = 60 := by
  decide +kernel

end Line

end FlexLayout
