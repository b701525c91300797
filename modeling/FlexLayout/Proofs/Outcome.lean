/-
# FlexLayout.Proofs.Outcome -- what a flexed line is like

Flexing leaves every item frozen within its limits, counts each of them once, and forgets what
targets, counts and marks it found (`flex_settles`).  The line has used what its items take,
as long as adding that up in the order of freezing never leaves the range
(`used_flex_of_running`).
-/
import FlexLayout.Proofs.Flexing.Counting

namespace FlexLayout

set_option autoImplicit false

namespace Line

variable {line : Line} {items : List Item}

theorem frozen_flex (line : Line) (items : List Item) (available : Option Int) (gap : Int) :
    (line.flex items available gap).1.frozen = items.length := by
  have tallied := (tallied_start line items (line.grows available gap)).flexPasses
    (line.grows available gap) (line.initialSpace items available gap)
    (line.roomFor available gap) (items.length + 1)
  have all := (tallied.freeze fun _ => true).frozen
  have same := (map_unflexed_flex line items available gap).length_eq
  rw [same]
  refine all.trans (List.countP_eq_length.2 ?_)
  rw [freeze_snd]
  exact List.forall_mem_map.2 fun item _ => by rw [Item.freezeIf_always]

/-- Items out of flow are left at their hypothetical sizes. -/
theorem target_flex_of_outOfFlow (line : Line) (items : List Item) (available : Option Int)
    (gap : Int) :
    List.Forall₂ (fun item after => item.outOfFlow = true → after.target = item.hypothetical)
      items (line.flex items available gap).2 := by
  have kept : List.Forall₂ (fun item after => item.outOfFlow = true →
      after.frozen = true ∧ after.target = item.hypothetical) items
      (line.flex items available gap).2 := by
    refine forall₂_flex (fun item _ out => ?_) (fun item before after holds passed out => ?_)
      fun item after holds out => ⟨rfl, (holds out).2⟩
    · rcases item.start_cases (line.grows available gap) with ⟨-, same⟩ | ⟨inFlow, -, -⟩
      · rw [same]
        exact ⟨rfl, rfl⟩
      · rw [inFlow] at out
        cases out
    · obtain ⟨done, target⟩ := holds out
      cases passed with
      | frozen => exact ⟨done, target⟩
      | weightless open_ => simp [done] at open_
      | held open_ => simp [done] at open_
  exact kept.imp fun item after holds out => (holds out).2

/-- Flexing does not read what it overwrites. -/
theorem flex_of_counts {line' : Line} {items' : List Item} (counts : Counts line line')
    (same : List.Forall₂ (fun item item' => item'.unflexed = item.unflexed) items items')
    (available : Option Int) (gap : Int) :
    line'.flex items' available gap = line.flex items available gap := by
  obtain ⟨used, frozen, rfl⟩ := counts
  exact flex_congr line same available gap

/-- **Flexing a line settles it.**  Every item is frozen and counted, in flow at a target within
its limits and out of flow at its hypothetical size; only what is decided here has changed; the
used size is what the items in flow and their gaps take, if that can be added up; and the result
depends on nothing that is overwritten, so flexing the line again changes nothing. -/
theorem flex_settles (line : Line) {items : List Item} (available : Option Int) (gap : Int)
    (measured : ∀ item ∈ items, item.hypothetical = item.hold item.base) :
    let flexed := line.flex items available gap
    let gaps := Pixel.gapsBetween line.inFlow gap
    flexed.1 = { line with used := flexed.1.used, frozen := items.length } ∧
    List.Forall₂ (fun item after => after.unflexed = item.unflexed ∧ after.frozen = true ∧
        (item.outOfFlow = false → item.hold after.target = after.target) ∧
        (item.outOfFlow = true → after.target = item.hypothetical)) items flexed.2 ∧
    (Pixel.Running (line.countingOrder items available gap ++ [gaps]) →
      flexed.1.used = sumInFlow Item.target flexed.2 + gaps) ∧
    (∀ (line' : Line) (items' : List Item), Counts line line' →
      List.Forall₂ (fun item item' => item'.unflexed = item.unflexed) items items' →
      line'.flex items' available gap = flexed) ∧
    flexed.1.flex flexed.2 available gap = flexed := by
  have kept := map_unflexed_flex line items available gap
  have counts := counts_flex line items available gap
  have limited : ∀ item ∈ items, item.Limited := fun item member => by
    rw [Item.Limited, measured item member]
    exact item.hold_hold_main item.base
  have held := held_flex line available gap limited
  have frozen : ∀ after ∈ (line.flex items available gap).2, after.frozen = true := by
    rw [flex_snd]
    exact List.forall_mem_map.2 fun item _ => rfl
  refine ⟨?_, ?_, used_flex_of_running line items available gap,
    fun line' items' counts same => flex_of_counts counts same available gap,
    flex_of_counts counts kept available gap⟩
  · have count := frozen_flex line items available gap
    obtain ⟨used, _, same⟩ := counts
    rw [same] at count ⊢
    rw [← count]
  · have each := forall₂_and_right kept fun after member =>
      And.intro (frozen after member) (held after member)
    refine List.Forall₂.mp ?_ each (target_flex_of_outOfFlow line items available gap)
    rintro item after ⟨kept, frozen, held⟩ out
    have hold : after.hold = item.hold := (congrArg Item.hold kept :)
    exact ⟨kept, frozen, fun _ => hold ▸ held, out⟩

/-- One item is out of flow and keeps its size, one cannot flex, and the other two are frozen
when the passes are over, because of a minimum above its maximum.  What the line and its items
say of an earlier run is forgotten. -/
theorem flex_settles_torn :
    let items : List Item :=
      [{ outOfFlow := true, base := 7, hypothetical := 7, target := 3 },
        { base := 10, hypothetical := 10, target := 99, frozen := true },
        { grow := 1, minMain := 10, maxMain := some 5, hypothetical := 10 },
        { grow := 1, violation := .max }]
    let line : Line := { count := 4, inFlow := 3, main := 30, used := 5, frozen := 1 }
    let flexed := line.flex items (some 100) 5
    (∀ item ∈ items, item.hypothetical = item.hold item.base) ∧
      line.countingOrder items (some 100) 5 = [10, 10, 40] ∧
      flexed.2.map Item.target = [7, 10, 10, 40] ∧
      flexed.1.used = sumInFlow Item.target flexed.2 + 10 ∧
      flexed.1.flex flexed.2 (some 100) 5 = flexed := by
  intro items line flexed
  have measured : ∀ item ∈ items, item.hypothetical = item.hold item.base := by decide
  have order : line.countingOrder items (some 100) 5 = [10, 10, 40] := by decide +kernel
  obtain ⟨-, -, adds, -, again⟩ := flex_settles line (some 100) 5 measured
  have gaps : Pixel.gapsBetween line.inFlow 5 = 10 := by decide
  rw [order, gaps] at adds
  exact ⟨measured, order, by decide +kernel, adds (by decide), again⟩

end Line

end FlexLayout
