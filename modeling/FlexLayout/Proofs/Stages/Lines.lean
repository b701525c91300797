/-
# FlexLayout.Proofs.Stages.Lines -- lines that are flexed alike

A line and the same line without some items out of flow are flexed alike, whatever
number each has in its container (`placedAlike_items`).  In containers with the same
main space this makes whole lists of lines correspond: a list of lines corresponds to
itself (`lines_same`), and breaking fewer items gives the same lines, except that a
line which begins with nothing but items out of flow may have no counterpart
(`lines_breakAll`).
-/
import FlexLayout.Proofs.Flexing.Dropping
import FlexLayout.Proofs.Stages.Place

namespace FlexLayout

set_option autoImplicit false

open Pairing

variable {p : Pairing} {container other : Container}

namespace Pairing

/-- The same pairing for items of lines that have numbers. -/
def numbered (p : Pairing) (index : Nat) : Pairing := { p with line := fun _ => index }

theorem items_numbered (index index' : Nat) (items : List Item) :
    (p.numbered index').items (items.map fun item => { item with line := index }) =
      (p.items items).map fun item => { item with line := index' } := by
  simp only [Pairing.items]
  rw [List.filter_map, List.map_map, List.map_map]
  rfl

theorem items_same_numbered (index : Nat) (items : List Item) :
    (same.numbered index).items items = items.map fun item => { item with line := index } := by
  show (items.filter fun item => same.keep item.child).map _ = _
  rw [filter_same]
  rfl

theorem weightless_numbered {items : List Item} (weightless : p.Weightless items)
    (index index' : Nat) :
    (p.numbered index').Weightless (items.map fun item => { item with line := index }) := by
  intro item member drop
  obtain ⟨source, among, rfl⟩ := List.mem_map.1 member
  exact weightless source among drop

end Pairing

/-- Items that are the same up to the bounds they hit are counterparts. -/
theorem Item.counterparts_of_calm {index : Nat} {items others : List Item}
    (same : others.map Item.calm = (p.numbered index).items (items.map Item.calm)) :
    Item.Counterparts p items others := by
  simp only [Pairing.items] at same
  rw [List.filter_map, List.map_map] at same
  have equal : List.Forall₂ Eq
      ((items.filter fun item => p.keep item.child).map fun item => (p.numbered index).item item.calm)
      (others.map Item.calm) := by
    rw [List.forall₂_eq_eq_eq]
    exact same.symm
  rw [List.forall₂_map_left_iff, List.forall₂_map_right_iff] at equal
  apply equal.imp
  intro item other equal
  exact ⟨(congrArg Item.child equal :).symm, (congrArg Item.target equal :).symm,
    (congrArg Item.outOfFlow equal :).symm, (congrArg Item.minCross equal :).symm,
    (congrArg Item.maxCross equal :).symm⟩

namespace Line

theorem ofLine_alike (alike : container.Alike other) (space : other.mainSpace = container.mainSpace)
    {line line' : Line} (used : line'.used = line.used)
    (autos : line'.autoMargins = line.autoMargins) (inFlow : line'.inFlow = line.inFlow) :
    MainTrack.ofLine other line' = MainTrack.ofLine container line := by
  simp only [MainTrack.ofLine, alike.axes, alike.justify, alike.padding, alike.mainGap, space, used,
    autos, inFlow]

/-- **A line without some items out of flow is placed as with them.** -/
theorem placedAlike_items (alike : container.Alike other)
    (space : other.mainSpace = container.mainSpace) (line line' : Line) (main : line'.main = line.main)
    (cross : line'.cross = line.cross) (inFlow : line'.inFlow = line.inFlow) {items : List Item}
    (weightless : p.Weightless items) :
    PlacedAlike p True container other ⟨line, items⟩ ⟨line', p.items items⟩ where
  main := main
  cross := cross
  items := Item.counterparts_items items
  flexed autos index index' := by
    have flexed := flex_items (p := p.numbered index') { line with autoMargins := autos }
      { line' with autoMargins := autos } main inFlow
      (weightless_numbered weightless index index') container.mainSpace container.mainGap
    rw [items_numbered] at flexed
    dsimp only
    rw [space, alike.mainGap]
    refine ⟨?_, Item.counterparts_of_calm flexed.2⟩
    have counts := counts_flex { line with autoMargins := autos }
      (items.map fun item => { item with line := index }) container.mainSpace container.mainGap
    have counts' := counts_flex { line' with autoMargins := autos }
      ((p.items items).map fun item => { item with line := index' }) container.mainSpace
      container.mainGap
    obtain ⟨used, frozen, counts⟩ := counts
    obtain ⟨used', frozen', counts'⟩ := counts'
    refine fun _ => ofLine_alike alike space flexed.1 ?_ ?_
    · rw [counts, counts']
    · rw [counts, counts']
      exact inFlow

/-! ## Breaking fewer items -/

/-- Two lines that have room for the same items. -/
structure Beside (line line' : Line) : Prop where
  main : line'.main = line.main
  cross : line'.cross = line.cross
  inFlow : line'.inFlow = line.inFlow

theorem Beside.breaksBefore {line line' : Line} (beside : Beside line line') (open_ : 0 < line.count)
    (open' : 0 < line'.count) (rule : Breaking) (item : Item) :
    line'.breaksBefore rule (p.item item) = line.breaksBefore rule item := by
  have overflows : line'.overflows rule (p.item item) = line.overflows rule item := by
    unfold Line.overflows gapBefore
    rw [beside.main, beside.inFlow]
    rfl
  simp only [Line.breaksBefore]
  rw [overflows, decide_eq_true open_, decide_eq_true open']
  rfl

theorem Beside.add {line line' : Line} (beside : Beside line line') (rule : Breaking) (item : Item) :
    Beside (line.add rule item) (line'.add rule (p.item item)) := by
  simp only [Line.add]
  rw [show (p.item item).outOfFlow = item.outOfFlow from rfl]
  cases item.outOfFlow with
  | true => exact ⟨beside.main, beside.cross, beside.inFlow⟩
  | false =>
      refine ⟨?_, beside.cross, congrArg (· + 1) beside.inFlow⟩
      show line'.main + (gapBefore rule line' + item.hypothetical) =
        line.main + (gapBefore rule line + item.hypothetical)
      simp only [gapBefore]
      rw [beside.main, beside.inFlow]

/-- An item out of flow changes nothing but the number of items. -/
theorem Beside.add_outOfFlow {line line' : Line} (beside : Beside line line') (rule : Breaking)
    {item : Item} (out : item.outOfFlow = true) : Beside (line.add rule item) line' := by
  simp only [Line.add]
  rw [if_pos out]
  exact ⟨beside.main, beside.cross, beside.inFlow⟩

theorem count_add (rule : Breaking) (line : Line) (item : Item) : 0 < (line.add rule item).count := by
  simp only [Line.add]
  split <;> exact Nat.succ_pos _

theorem breaksBefore_of_outOfFlow (rule : Breaking) (line : Line) {item : Item}
    (out : item.outOfFlow = true) : line.breaksBefore rule item = false := by
  simp [Line.breaksBefore, out]

theorem lines_fill (alike : container.Alike other) (space : other.mainSpace = container.mainSpace)
    (rule : Breaking) {line line' : Line} (beside : Beside line line') (open_ : 0 < line.count)
    (open' : 0 < line'.count) {taken items : List Item} (weightless : p.Weightless (taken ++ items)) :
    Lines (PlacedAlike p True container other) (fill rule line taken items)
      (fill rule line' (p.items taken) (p.items items)) := by
  induction items generalizing line line' taken with
  | nil =>
      rw [List.append_nil] at weightless
      exact .cons
        (placedAlike_items alike space _ _ beside.main beside.cross beside.inFlow weightless) .nil
  | cons item rest ih =>
      have weightless' : p.Weightless ((taken ++ [item]) ++ rest) := by simpa using weightless
      rw [fill]
      cases keep : p.keep item.child with
      | true =>
          rw [p.items_cons_of_keep keep, fill, beside.breaksBefore open_ open']
          cases line.breaksBefore rule item with
          | true =>
              have here : p.Weightless taken := fun other member =>
                weightless other (List.mem_append_left _ member)
              have later : p.Weightless ([item] ++ rest) := fun other member =>
                weightless other (List.mem_append_right _ member)
              rw [if_pos rfl, if_pos rfl]
              refine .cons
                (placedAlike_items alike space _ _ beside.main beside.cross beside.inFlow here) ?_
              have begun : Beside ({ first := line.stop } : Line) { first := line'.stop } :=
                ⟨rfl, rfl, rfl⟩
              have next := ih (begun.add (p := p) rule item) (count_add rule _ _)
                (count_add rule _ _) later
              rwa [p.items_cons_of_keep keep] at next
          | false =>
              have next := ih (beside.add (p := p) rule item) (count_add rule _ _) (count_add rule _ _)
                weightless'
              rw [p.items_append, p.items_cons_of_keep keep] at next
              exact next
      | false =>
          -- An item without a counterpart takes no space, so it stays on this line.
          have out := weightless item (List.mem_append_right _ List.mem_cons_self) keep
          rw [breaksBefore_of_outOfFlow rule line out, p.items_cons_of_drop keep]
          have next := ih (beside.add_outOfFlow rule out) (count_add rule _ _) open' weightless'
          rw [p.items_append, p.items_cons_of_drop keep, p.items_nil, List.append_nil] at next
          exact next

/-- A line of items without counterparts is like one without items. -/
theorem placedAlike_idle (alike : container.Alike other)
    (space : other.mainSpace = container.mainSpace) (line : Line) {items : List Item}
    (none : p.items items = []) (weightless : p.Weightless items) :
    PlacedAlike p True container other ⟨line, items⟩ ⟨line, []⟩ := by
  have placed := placedAlike_items alike space line line rfl rfl rfl weightless
  rwa [none] at placed

/-- A line that the second container has not begun yet: it may turn out to have no
counterpart. -/
theorem lines_fill_unbegun (alike : container.Alike other)
    (space : other.mainSpace = container.mainSpace) (rule : Breaking) {line : Line}
    (beside : Beside line {}) (open_ : 0 < line.count) {taken items : List Item}
    (some : taken ≠ []) (none : p.items taken = []) (weightless : p.Weightless (taken ++ items)) :
    Lines (PlacedAlike p True container other) (fill rule line taken items)
      (breakAll rule (p.items items)) := by
  -- No item of the open line has a counterpart, up to the first one that has.
  induction items generalizing line taken with
  | nil =>
      rw [List.append_nil] at weightless
      exact .skip some (placedAlike_idle alike space line none weightless) .nil
  | cons item rest ih =>
      have weightless' : p.Weightless ((taken ++ [item]) ++ rest) := by simpa using weightless
      rw [fill]
      cases keep : p.keep item.child with
      | true =>
          rw [p.items_cons_of_keep keep, breakAll]
          split
          · have here : p.Weightless taken := fun other member =>
              weightless other (List.mem_append_left _ member)
            have later : p.Weightless ([item] ++ rest) := fun other member =>
              weightless other (List.mem_append_right _ member)
            have begun : Beside ({ first := line.stop } : Line) {} := ⟨rfl, rfl, rfl⟩
            have next := lines_fill alike space rule (begun.add (p := p) rule item) (count_add rule _ _)
              (count_add rule _ _) later
            rw [p.items_cons_of_keep keep] at next
            exact .skip some (placedAlike_idle alike space line none here) next
          · have next := lines_fill alike space rule (beside.add (p := p) rule item) (count_add rule _ _)
              (count_add rule _ _) weightless'
            rw [p.items_append, none, p.items_cons_of_keep keep] at next
            exact next
      | false =>
          have out := weightless item (List.mem_append_right _ List.mem_cons_self) keep
          rw [breaksBefore_of_outOfFlow rule line out, p.items_cons_of_drop keep]
          refine ih (beside.add_outOfFlow rule out) (count_add rule _ _) (by simp) ?_ weightless'
          rw [p.items_append, none, p.items_cons_of_drop keep]
          rfl

/-- **Breaking fewer items gives corresponding lines.** -/
theorem lines_breakAll (alike : container.Alike other)
    (space : other.mainSpace = container.mainSpace) (rule : Breaking) {items : List Item}
    (weightless : p.Weightless items) :
    Lines (PlacedAlike p True container other) (breakAll rule items)
      (breakAll rule (p.items items)) := by
  cases items with
  | nil => exact .nil
  | cons item rest =>
      have begun : Beside ({} : Line) {} := ⟨rfl, rfl, rfl⟩
      rw [breakAll]
      cases keep : p.keep item.child with
      | true =>
          have filled := lines_fill alike space rule (begun.add (p := p) rule item) (count_add rule _ _)
            (count_add rule _ _) (show p.Weightless ([item] ++ rest) from weightless)
          rw [p.items_cons_of_keep keep, p.items_nil] at filled
          rw [p.items_cons_of_keep keep, breakAll]
          exact filled
      | false =>
          have out := weightless item List.mem_cons_self keep
          rw [p.items_cons_of_drop keep]
          refine lines_fill_unbegun alike space rule (begun.add_outOfFlow rule out)
            (count_add rule _ _) (List.cons_ne_nil _ _) ?_ weightless
          rw [p.items_cons_of_drop keep, p.items_nil]

theorem lines_same (alike : container.Alike other) (space : other.mainSpace = container.mainSpace)
    (lines : List FilledLine) : Lines (PlacedAlike same True container other) lines lines := by
  induction lines with
  | nil => exact .nil
  | cons filled rest ih =>
      refine .cons ?_ ih
      have placed := placedAlike_items alike space filled.line filled.line rfl rfl rfl
        (weightless_same filled.items)
      rwa [items_same] at placed

end Line

end FlexLayout
