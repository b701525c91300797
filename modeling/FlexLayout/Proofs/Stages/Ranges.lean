/-
# FlexLayout.Proofs.Stages.Ranges -- which items are on which line

The ranges of the lines that items are broken into follow each other and cover all
positions (`ranges_breakAll`), and each line has the items of its range
(`slice_breakAll`).  Lines do not depend on the items behind them: breaking the items
before a line gives the lines before it (`breakAll_take`).
-/
import FlexLayout.Proofs.Stages.Breaking
import Mathlib.Data.List.Chain

namespace FlexLayout

set_option autoImplicit false

namespace Line

def range (line : Line) : List Nat := List.range' line.first line.count

theorem mem_range {line : Line} {i : Nat} : i ∈ line.range ↔ line.first ≤ i ∧ i < line.stop := by
  simp [range, stop, List.mem_range'_1]

variable {rule : Breaking} {line : Line} {taken items : List Item}

@[simp] theorem first_add (rule : Breaking) (line : Line) (item : Item) :
    (line.add rule item).first = line.first := by
  simp only [add]
  split <;> rfl

@[simp] theorem stop_add (rule : Breaking) (line : Line) (item : Item) :
    (line.add rule item).stop = line.stop + 1 := by
  simp only [stop, add]
  split <;> exact (Nat.add_assoc _ _ _).symm

@[simp] theorem stop_start (first : Nat) : ({ first := first } : Line).stop = first := rfl

theorem line_fill (rule : Breaking) (line : Line) (taken items : List Item) {filled : FilledLine}
    (found : (fill rule line taken items).head? = some filled) : filled.line.first = line.first := by
  induction items generalizing line taken with
  | nil =>
      obtain rfl : (⟨line, taken⟩ : FilledLine) = filled := Option.some.inj found
      rfl
  | cons item rest ih =>
      rw [fill] at found
      split at found
      · obtain rfl : (⟨line, taken⟩ : FilledLine) = filled := Option.some.inj found
        rfl
      · exact (ih _ _ found).trans (first_add rule line item)

theorem first_le_fill (rule : Breaking) (line : Line) (taken items : List Item) :
    ∀ filled ∈ fill rule line taken items, line.first ≤ filled.line.first := by
  induction items generalizing line taken with
  | nil => simp [fill]
  | cons item rest ih =>
      rw [fill]
      split
      · refine List.forall_mem_cons.2 ⟨Nat.le_refl _, fun filled member => ?_⟩
        have later := ih _ _ filled member
        rw [first_add] at later
        exact Nat.le_trans (Nat.le_add_right line.first line.count) later
      · simpa using ih (line.add rule item) (taken ++ [item])

/-! ## Ranges -/

theorem ranges_fill (rule : Breaking) (line : Line) (taken items : List Item) :
    ((fill rule line taken items).flatMap fun filled => filled.line.range) =
      List.range' line.first (line.count + items.length) := by
  induction items generalizing line taken with
  | nil => simp [fill, range]
  | cons item rest ih =>
      have counts (line : Line) : (line.add rule item).count = line.count + 1 := by
        simp only [add]
        split <;> rfl
      rw [fill]
      split
      · rw [List.flatMap_cons, ih, counts, first_add, range, stop, List.range'_append_1, List.length_cons]
        congr 1
        dsimp only
        omega
      · rw [ih, counts, first_add, List.length_cons]
        congr 1
        omega

/-- **The ranges of the lines are all positions, in order.** -/
theorem ranges_breakAll (rule : Breaking) (items : List Item) :
    ((breakAll rule items).flatMap fun filled => filled.line.range) = List.range items.length := by
  cases items with
  | nil => rfl
  | cons item rest =>
      have one : (add rule {} item).count = 1 := by
        simp only [add]
        split <;> rfl
      rw [breakAll, ranges_fill, one, first_add, List.range_eq_range', List.length_cons, Nat.add_comm]

/-- A line begins where the one before ends, and the later ones begin no earlier. -/
theorem later_fill (rule : Breaking) (line : Line) (taken items : List Item) :
    ((fill rule line taken items).IsChain fun filled next => next.line.first = filled.line.stop) ∧
      (fill rule line taken items).Pairwise fun filled later =>
        filled.line.stop ≤ later.line.first := by
  induction items generalizing line taken with
  | nil => exact ⟨.singleton _, List.pairwise_singleton _ _⟩
  | cons item rest ih =>
      rw [fill]
      split
      · obtain ⟨chain, pairwise⟩ := ih (add rule { first := line.stop } item) [item]
        refine ⟨List.isChain_cons.2 ⟨fun next found => ?_, chain⟩,
          List.pairwise_cons.2 ⟨fun later member => ?_, pairwise⟩⟩
        · simpa using line_fill _ _ _ _ found
        · simpa using first_le_fill _ _ _ _ later member
      · exact ih _ _

theorem later_breakAll (rule : Breaking) (items : List Item) :
    ((breakAll rule items).IsChain fun filled next => next.line.first = filled.line.stop) ∧
      (breakAll rule items).Pairwise fun filled later => filled.line.stop ≤ later.line.first := by
  cases items with
  | nil => exact ⟨.nil, .nil⟩
  | cons item rest => exact later_fill rule _ _ rest

/-! ## Items -/

/-- A line of a list of items has the items of its range, and at least one. -/
structure Slice (all : List Item) (filled : FilledLine) : Prop where
  items : filled.items = (all.drop filled.line.first).take filled.line.count
  some : 0 < filled.line.count

theorem Slice.add {all rest : List Item} {item : Item} (rule : Breaking) (line : Line)
    (taken : List Item) (taken_eq : taken = (all.drop line.first).take line.count)
    (next : all.drop line.stop = item :: rest) : Slice all ⟨line.add rule item, taken ++ [item]⟩ := by
  have count : (line.add rule item).count = line.count + 1 := by
    simp only [Line.add]
    split <;> rfl
  refine ⟨?_, by rw [count]; exact Nat.succ_pos _⟩
  rw [count, first_add, List.take_add, ← taken_eq, List.drop_drop]
  show taken ++ [item] = taken ++ (all.drop line.stop).take 1
  rw [next]
  rfl

theorem slice_fill {all : List Item} (slice : Slice all ⟨line, taken⟩)
    (rest : all.drop line.stop = items) : ∀ filled ∈ fill rule line taken items, Slice all filled := by
  induction items generalizing line taken with
  | nil => exact List.forall_mem_singleton.2 slice
  | cons item items ih =>
      have later : all.drop (line.stop + 1) = items := by
        rw [← List.drop_drop, rest]
        rfl
      rw [fill]
      split
      · refine List.forall_mem_cons.2 ⟨slice, ih ?_ (by simpa using later)⟩
        exact Slice.add rule { first := line.stop } [] (by simp) (by simpa using rest)
      · exact ih (Slice.add rule line taken slice.items rest) (by simpa using later)

/-- **Each line has the items of its range, and at least one.** -/
theorem slice_breakAll (rule : Breaking) (items : List Item) :
    ∀ filled ∈ breakAll rule items, Slice items filled := by
  cases items with
  | nil => exact fun _ member => absurd member List.not_mem_nil
  | cons item rest =>
      refine slice_fill (Slice.add rule {} [] (by simp) rfl) ?_
      rw [stop_add]
      rfl

/-! ## Lines before a line -/

theorem fill_take {front back : List FilledLine} {filled : FilledLine} (some : front ≠ [])
    (split : fill rule line taken items = front ++ filled :: back) :
    line.stop ≤ filled.line.first ∧
      fill rule line taken (items.take (filled.line.first - line.stop)) = front := by
  induction items generalizing line taken front with
  | nil =>
      obtain ⟨first, front, rfl⟩ := List.exists_cons_of_ne_nil some
      simp [fill] at split
  | cons item rest ih =>
      rw [fill] at split
      split at split
      next breaks =>
        obtain ⟨first, front, rfl⟩ := List.exists_cons_of_ne_nil some
        rw [List.cons_append, List.cons.injEq] at split
        obtain ⟨rfl, split⟩ := split
        by_cases none : front = []
        · subst none
          have here : filled.line.first = line.stop := by
            refine (line_fill rule _ [item] rest ?_).trans (first_add rule { first := line.stop } item)
            rw [split]
            rfl
          rw [here, Nat.sub_self, List.take_zero]
          exact ⟨Nat.le_refl _, rfl⟩
        · obtain ⟨le, before⟩ := ih none split
          rw [stop_add, stop_start] at le before
          refine ⟨by omega, ?_⟩
          rw [show filled.line.first - line.stop = filled.line.first - (line.stop + 1) + 1 by omega,
            List.take_succ_cons, fill, if_pos breaks, before]
      next stays =>
        obtain ⟨le, before⟩ := ih some split
        rw [stop_add] at le before
        refine ⟨by omega, ?_⟩
        rw [show filled.line.first - line.stop = filled.line.first - (line.stop + 1) + 1 by omega,
          List.take_succ_cons, fill, if_neg stays, before]

/-- **The lines before a line are those of the items before it.** -/
theorem breakAll_take {front back : List FilledLine} {filled : FilledLine}
    (split : breakAll rule items = front ++ filled :: back) :
    breakAll rule (items.take filled.line.first) = front := by
  cases items with
  | nil => simp [breakAll] at split
  | cons item rest =>
      rw [breakAll] at split
      by_cases none : front = []
      · subst none
        have here : filled.line.first = 0 := by
          refine (line_fill rule _ [item] rest ?_).trans (first_add rule {} item)
          rw [split]
          rfl
        rw [here]
        rfl
      · obtain ⟨le, before⟩ := fill_take none split
        rw [stop_add, stop_start] at le before
        rw [show filled.line.first = filled.line.first - (0 + 1) + 1 by omega, List.take_succ_cons,
          breakAll]
        exact before

end Line

end FlexLayout
