/-
# FlexLayout.Proofs.Direction -- what flexing never does

A line with room to spare makes no item smaller than it was measured, and any other line makes
none larger (`flex_one_way`).  The free space keeps its sign through all passes, so what a
shrinking line takes from its items is the magnitude of a space that is missing.
-/
import FlexLayout.Proofs.Flexing.Onward
import FlexLayout.Proofs.Flexing.Ranged

namespace FlexLayout

set_option autoImplicit false

namespace Line

/-- **A line flexes in one direction only**, whatever the limits and factors of its items are:
its items end no smaller than they were measured, if the line is smaller than the available
size, and else no larger; and in every pass the free space, and what is handed out of it, are
on that side of nothing.  So a shrinking pass takes as much as is missing; only the least of
all sizes has no magnitude, and then nothing is taken. -/
theorem flex_one_way {filled : FilledLine} {available : Option Int} {gap : Int}
    (gathered : Gathered gap filled) (unclipped : Unclipped filled available gap) :
    let growing := decide (filled.line.main < available.getD filled.line.main)
    let initial := filled.line.initialSpace filled.items available gap
    let room := filled.line.roomFor available gap
    List.Forall₂ (fun item after => after.unflexed = item.unflexed ∧ (item.outOfFlow = false →
        if growing then item.hypothetical ≤ after.target else after.target ≤ item.hypothetical))
      filled.items (filled.line.flex filled.items available gap).2 ∧
    ∀ state ∈ filled.line.rounds filled.items available gap,
      let free := freeSpace room state.2
      let space := passSpace growing initial room state.2
      if growing then 0 < free ∧ 0 ≤ space
      else free ≤ 0 ∧ space ≤ 0 ∧
        (HandsOut growing initial room state.2 ∨ -2147483648 < space →
          Pixel.magnitude space = -space) := by
  obtain ⟨line, items⟩ := filled
  have grows : line.grows available gap = decide (line.main < available.getD line.main) :=
    unclipped.grows_eq
  obtain ⟨states, ends⟩ := unclipped.advancing gathered
  obtain ⟨-, sign⟩ := unclipped.advancing_started gathered
  have passes := unclipped.each
  dsimp only at passes ⊢
  rw [← grows]
  generalize line.grows available gap = growing at states ends sign passes ⊢
  constructor
  · have held := held_flex line available gap fun item member => (gathered.fit item member).limited
    have onward : ∀ after ∈ (line.flex items available gap).2,
        Onward growing after.hypothetical after.target := by
      intro after member
      have within := held after member
      rw [flex_snd] at member
      obtain ⟨last, among, rfl⟩ := List.mem_map.1 member
      exact (ends.each last among).onward_target within
    refine (forall₂_and_right (map_unflexed_flex line items available gap) onward).imp ?_
    rintro item after ⟨kept, onward⟩
    have hypothetical : after.hypothetical = item.hypothetical :=
      (congrArg Item.hypothetical kept :)
    rw [hypothetical] at onward
    exact ⟨kept, fun _ => onward⟩
  · intro state member
    obtain ⟨some, advancing⟩ := states state member
    obtain ⟨pass, initial⟩ := passes state member
    obtain ⟨free, space, -⟩ :=
      advancing.onward_space some (initial ▸ onward_of_sign sign) pass.free
    have magnitude := pass.magnitude
    cases growing with
    | true => exact ⟨free, space⟩
    | false =>
        have taken : passSpace false (line.initialSpace items available gap)
          (line.roomFor available gap) state.2 ≤ 0 := space
        refine ⟨free, taken, ?_⟩
        rintro (hands | above)
        · rw [magnitude hands rfl]
          omega
        · simp only [Pixel.magnitude, Pixel.saturate]
          omega

/-- An item whose minimum is above its maximum is raised to that minimum again.  The other
two, whose factors sum to one half, then give half of the space that is missing. -/
theorem flex_one_way_torn :
    let items : List Item :=
      [{ shrink := 1, minMain := 15, maxMain := some 5, base := 20, hypothetical := 15 },
        { shrink := Factor.ofRaw 256, base := 30, hypothetical := 30 },
        { shrink := Factor.ofRaw 256, minMain := 10, base := 20, hypothetical := 20 }]
    let filled : FilledLine := ⟨{ count := 3, inFlow := 3, main := 75 }, items⟩
    Gathered 5 filled ∧ Unclipped filled (some 40) 5 ∧
      (filled.line.flex items (some 40) 5).2.map Item.target = [15, 18, 12] ∧
      ∀ state ∈ filled.line.rounds items (some 40) 5,
        freeSpace (filled.line.roomFor (some 40) 5) state.2 ≤ 0 := by
  intro items filled
  have gathered : Gathered 5 filled := by decide
  have unclipped : Unclipped filled (some 40) 5 := Ranged.unclipped (by decide +kernel)
  obtain ⟨-, spaces⟩ := flex_one_way gathered unclipped
  refine ⟨gathered, unclipped, ?_, fun state member => (spaces state member).1⟩
  decide +kernel

end Line

end FlexLayout
