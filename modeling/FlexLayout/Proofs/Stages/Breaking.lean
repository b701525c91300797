/-
# FlexLayout.Proofs.Stages.Breaking -- what lines know of their items

A line counts its items in flow, and without one it has no size (`Line.Sound`).  That
holds of every line that items are broken into (`sound_breakAll`), and placing a line
keeps it (`PlacedFrom.sound`).  Its main size is the sum of the hypothetical sizes and
of the gaps between them (`main_breakAll`).

Items that are not broken make the same line under every rule with the same gap
(`breakAll_unbroken`).
-/
import FlexLayout.Proofs.Stages.Place

namespace FlexLayout

set_option autoImplicit false

namespace Line

/-- A line that counts its items in flow, has no size without them, and no negative size
across. -/
structure Sound (filled : FilledLine) : Prop where
  inFlow : filled.line.inFlow = filled.items.countP fun item => !item.outOfFlow
  main : filled.line.inFlow = 0 → filled.line.main = 0
  cross : filled.line.inFlow = 0 → filled.line.cross = 0
  nonneg : 0 ≤ filled.line.cross

theorem sound_start (first : Nat) : Sound ⟨{ first := first }, []⟩ :=
  ⟨rfl, fun _ => rfl, fun _ => rfl, Int.le_refl 0⟩

theorem Sound.add {line : Line} {taken : List Item} (sound : Sound ⟨line, taken⟩) (rule : Breaking)
    (item : Item) : Sound ⟨line.add rule item, taken ++ [item]⟩ := by
  have counted := sound.inFlow
  dsimp only at counted
  simp only [Line.add]
  cases flow : item.outOfFlow with
  | true =>
      rw [if_pos rfl]
      refine ⟨?_, sound.main, sound.cross, sound.nonneg⟩
      rw [List.countP_append, ← counted, List.countP_singleton, flow]
      rfl
  | false =>
      rw [if_neg Bool.false_ne_true]
      refine ⟨?_, fun none => absurd none (Nat.succ_ne_zero _),
        fun none => absurd none (Nat.succ_ne_zero _), sound.nonneg⟩
      rw [List.countP_append, ← counted, List.countP_singleton, flow]
      rfl

theorem sound_fill (rule : Breaking) {line : Line} {taken : List Item}
    (sound : Sound ⟨line, taken⟩) (items : List Item) :
    ∀ filled ∈ fill rule line taken items, Sound filled := by
  induction items generalizing line taken with
  | nil => exact List.forall_mem_singleton.2 sound
  | cons item rest ih =>
      rw [fill]
      split
      · exact List.forall_mem_cons.2 ⟨sound, ih ((sound_start line.stop).add rule item)⟩
      · exact ih (sound.add rule item)

theorem sound_breakAll (rule : Breaking) (items : List Item) :
    ∀ filled ∈ breakAll rule items, Sound filled := by
  cases items with
  | nil => exact fun _ member => absurd member List.not_mem_nil
  | cons item rest => exact sound_fill rule ((sound_start 0).add rule item) rest

theorem Sound.inFlow_eq_zero {filled : FilledLine} (sound : Sound filled) :
    filled.line.inFlow = 0 ↔ ∀ item ∈ filled.items, item.outOfFlow = true := by
  rw [sound.inFlow, List.countP_eq_zero]
  simp only [Bool.not_eq_true', Bool.not_eq_false]

theorem PlacedFrom.sound {filled placed : FilledLine} (kept : PlacedFrom filled placed)
    (sound : Sound filled) : Sound placed where
  inFlow := by
    rw [kept.inFlow, sound.inFlow]
    refine List.Forall₂.rec (motive := fun items after _ =>
      items.countP (fun item => !item.outOfFlow) = after.countP fun item => !item.outOfFlow)
      rfl (fun same _ ih => ?_) kept.items
    rw [List.countP_cons, List.countP_cons, ih, same.2]
  main none := by
    rw [kept.inFlow] at none
    rw [kept.main, sound.main none]
  cross none := by
    rw [kept.inFlow] at none
    rw [kept.cross (sound.inFlow_eq_zero.1 none), sound.cross none]
  nonneg := Int.le_trans sound.nonneg kept.raised

theorem sound_placed {lines placed : List FilledLine} (kept : List.Forall₂ PlacedFrom lines placed)
    (sound : ∀ filled ∈ lines, Sound filled) : ∀ filled ∈ placed, Sound filled := by
  intro after member
  obtain ⟨filled, among, from_⟩ := exists_of_mem_right kept member
  exact from_.sound (sound filled among)

theorem crossExtent_nonneg {lines : List FilledLine} (sound : ∀ filled ∈ lines, Sound filled) :
    0 ≤ crossExtent lines := by
  simp only [crossExtent]
  induction lines with
  | nil => exact Int.le_refl 0
  | cons filled rest ih =>
      obtain ⟨here, later⟩ := List.forall_mem_cons.1 sound
      rw [List.map_cons, List.sum_cons]
      exact Int.add_nonneg here.nonneg (ih later)

/-! ## Number of lines -/

theorem length_fill_le (rule : Breaking) (line : Line) (taken items : List Item) :
    (fill rule line taken items).length ≤ items.length + 1 := by
  induction items generalizing line taken with
  | nil => exact Nat.le_refl 1
  | cons item rest ih =>
      rw [fill]
      split
      · exact Nat.succ_le_succ (ih _ _)
      · exact Nat.le_succ_of_le (ih _ _)

theorem length_breakAll_le (rule : Breaking) (items : List Item) :
    (breakAll rule items).length ≤ items.length := by
  cases items with
  | nil => exact Nat.le_refl 0
  | cons item rest => exact length_fill_le rule _ _ rest

/-! ## Main size -/

def hypotheticals (items : List Item) : List Int :=
  (items.filter fun item => !item.outOfFlow).map Item.hypothetical

theorem hypotheticals_append (items rest : List Item) :
    hypotheticals (items ++ rest) = hypotheticals items ++ hypotheticals rest := by
  simp only [hypotheticals]
  rw [List.filter_append, List.map_append]

/-- The main size of a line is what its items ask for, and the gaps between them. -/
def Summed (gap : Int) (filled : FilledLine) : Prop :=
  filled.line.main = (hypotheticals filled.items).sum + ((filled.line.inFlow - 1 : Nat) : Int) * gap

theorem Summed.add {rule : Breaking} {line : Line} {taken : List Item}
    (summed : Summed rule.gap ⟨line, taken⟩) (item : Item) :
    Summed rule.gap ⟨line.add rule item, taken ++ [item]⟩ := by
  simp only [Summed] at summed ⊢
  rw [hypotheticals_append, List.sum_append]
  simp only [Line.add, hypotheticals] at *
  cases flow : item.outOfFlow with
  | true => simpa [flow] using summed
  | false =>
      simp only [flow, Bool.false_eq_true, if_false, List.filter_cons, Bool.not_false, if_true,
        List.filter_nil, List.map_cons, List.map_nil, List.sum_cons, List.sum_nil,
        Nat.add_sub_cancel, summed, gapBefore]
      cases line.inFlow with
      | zero => simp
      | succ count =>
          rw [if_pos (Nat.succ_pos count), Nat.add_sub_cancel, Int.natCast_succ, Int.add_mul]
          omega

theorem summed_fill (rule : Breaking) {line : Line} {taken : List Item}
    (summed : Summed rule.gap ⟨line, taken⟩) (items : List Item) :
    ∀ filled ∈ fill rule line taken items, Summed rule.gap filled := by
  induction items generalizing line taken with
  | nil => exact List.forall_mem_singleton.2 summed
  | cons item rest ih =>
      have begun : Summed rule.gap ⟨({ first := line.stop } : Line), []⟩ := by
        simp [Summed, hypotheticals]
      rw [fill]
      split
      · exact List.forall_mem_cons.2 ⟨summed, ih (begun.add item)⟩
      · exact ih (summed.add item)

theorem main_breakAll (rule : Breaking) (items : List Item) :
    ∀ filled ∈ breakAll rule items, Summed rule.gap filled := by
  cases items with
  | nil => exact fun _ member => absurd member List.not_mem_nil
  | cons item rest =>
      have begun : Summed rule.gap ⟨({} : Line), []⟩ := by simp [Summed, hypotheticals]
      exact summed_fill rule (begun.add item) rest

theorem gapsBetween_eq {count : Nat} (few : count < 2147483648) (gap : Int) :
    Pixel.gapsBetween count gap = ((count - 1 : Nat) : Int) * gap := by
  by_cases more : 1 < count
  · rw [Pixel.gapsBetween_of_lt gap more few]
    congr 1
    omega
  · rw [Pixel.gapsBetween, if_neg more, show count - 1 = 0 by omega]
    simp

/-! ## Items that are not broken -/

theorem fill_ne_nil (rule : Breaking) (line : Line) (taken items : List Item) :
    fill rule line taken items ≠ [] := by
  induction items generalizing line taken with
  | nil => exact List.cons_ne_nil _ _
  | cons item rest ih =>
      rw [fill]
      split
      · exact List.cons_ne_nil _ _
      · exact ih _ _

theorem fill_unbroken {rule : Breaking} {line : Line} {taken items : List Item}
    (unbroken : (fill rule line taken items).length ≤ 1) :
    fill rule line taken items = [⟨items.foldl (add rule) line, taken ++ items⟩] := by
  induction items generalizing line taken with
  | nil => rw [fill, List.foldl_nil, List.append_nil]
  | cons item rest ih =>
      rw [fill] at unbroken ⊢
      split at unbroken
      · have more := List.length_pos_iff.2
          (fill_ne_nil rule (add rule { first := line.stop } item) [item] rest)
        rw [List.length_cons] at unbroken
        omega
      · rename_i stays
        rw [if_neg stays, ih unbroken, List.foldl_cons, List.append_assoc, List.singleton_append]

theorem add_eq_of_gap {rule rule' : Breaking} (gap : rule'.gap = rule.gap) :
    Line.add rule' = Line.add rule := by
  funext line item
  simp only [Line.add, gapBefore]
  rw [gap]

/-- **Rules with the same gap that do not break the items make the same line.** -/
theorem breakAll_unbroken {rule rule' : Breaking} (gap : rule'.gap = rule.gap) {items : List Item}
    (unbroken : (breakAll rule items).length ≤ 1) (unbroken' : (breakAll rule' items).length ≤ 1) :
    breakAll rule' items = breakAll rule items := by
  cases items with
  | nil => rfl
  | cons item rest =>
      rw [breakAll] at unbroken unbroken' ⊢
      rw [breakAll, fill_unbroken unbroken, fill_unbroken unbroken', add_eq_of_gap gap]

/-- No item ever opens a line: there is no wrapping, or no definite size. -/
def Breaking.Unbroken (rule : Breaking) : Prop := rule.wraps = false ∨ rule.available = none

theorem length_fill_of_unbroken {rule : Breaking} (unbroken : Breaking.Unbroken rule) (line : Line)
    (taken items : List Item) : (fill rule line taken items).length = 1 := by
  induction items generalizing line taken with
  | nil => rfl
  | cons item rest ih =>
      have stays : ¬line.breaksBefore rule item = true := by
        rcases unbroken with nowrap | unbounded
        · simp [Line.breaksBefore, nowrap]
        · simp [Line.breaksBefore, overflows, unbounded]
      rw [fill, if_neg stays]
      exact ih _ _

theorem length_breakAll_of_unbroken {rule : Breaking} (unbroken : Breaking.Unbroken rule)
    (items : List Item) : (breakAll rule items).length ≤ 1 := by
  cases items with
  | nil => exact Nat.zero_le 1
  | cons item rest => exact Nat.le_of_eq (length_fill_of_unbroken unbroken _ _ rest)

end Line

end FlexLayout
