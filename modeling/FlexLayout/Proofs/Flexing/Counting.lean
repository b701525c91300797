/-
# FlexLayout.Proofs.Flexing.Counting -- the used size of a line adds up

Items are frozen in several places: when flexing begins, by a pass for the bounds that they
hit, by a pass that finds no weight, and when the passes are over.  The line adds up the sizes
of those in flow in that order (`Line.countingOrder`), so its used size is what they take as
long as none of these sums leaves the range (`used_flex_of_running`).

The order depends on nothing that flexing decides (`countingOrder_congr`).  So it can be read
off a line whose items are flexed already (`used_flex_again`).  Where no part of the sizes
leaves the range, the order does not matter (`used_flex`).
-/
import FlexLayout.Proofs.Flexing.Dropping
import FlexLayout.Proofs.Flexing.Visits

namespace FlexLayout

set_option autoImplicit false

namespace Line

open Pairing

variable {line line' : Line} {items items' mid after : List Item}

/-! ## Counting sizes -/

/-- Sizes of the items in flow that a step freezes, in order. -/
def newSizes (before after : List Item) : List Int :=
  (List.zipWith (fun item last =>
    if !item.frozen && last.frozen && !last.outOfFlow then [last.target] else []) before after).flatten

/-- The line has counted its frozen items, in this order of their sizes. -/
structure CountedAs (order : List Int) (line : Line) (items : List Item) : Prop where
  perm : order.Perm (frozenSizes items)
  used : line.used = order.foldl Pixel.add 0

theorem newSizes_congr (same : List.Forall₂ Item.Waits items mid) (after : List Item) :
    newSizes mid after = newSizes items after := by
  induction same generalizing after with
  | nil => rfl
  | cons first _ ih =>
      cases after with
      | nil => rfl
      | cons last rest =>
          simp only [newSizes, List.zipWith_cons_cons, List.flatten_cons] at ih ⊢
          rw [ih, first.frozen]

theorem newSizes_freeze (cond : Item → Bool) (items : List Item) :
    newSizes items (items.map (Item.freezeIf cond)) =
      sizesInFlow (items.filter fun item => !item.frozen && cond item) := by
  induction items with
  | nil => rfl
  | cons item rest ih =>
      simp only [newSizes, List.map_cons, List.zipWith_cons_cons, List.flatten_cons] at ih ⊢
      rw [ih, List.filter_cons]
      cases done : item.frozen with
      | true => simp
      | false =>
          rw [Item.freezeIf_open cond done]
          cases hit : cond item with
          | false => simp
          | true =>
              simp only [Bool.not_false, Bool.true_and, if_true]
              rw [sizesInFlow_cons]
              cases flow : item.outOfFlow <;> simp [sizesInFlow, flow]

theorem CountedAs.waits {order : List Int} (counted : CountedAs order line items)
    (waits : List.Forall₂ Item.Waits items after) : CountedAs order line after where
  perm := (frozenSizes_of_waits waits).symm ▸ counted.perm
  used := counted.used

/-- Freezing items counts them in order. -/
theorem CountedAs.freeze {order : List Int} (counted : CountedAs order line items)
    (waits : List.Forall₂ Item.Waits items mid) (cond : Item → Bool) :
    CountedAs (order ++ newSizes items (line.freeze cond mid).2) (line.freeze cond mid).1
      (line.freeze cond mid).2 := by
  have counted := counted.waits waits
  rw [← newSizes_congr waits, freeze_snd, newSizes_freeze]
  refine ⟨(counted.perm.append_right _).trans (frozenSizes_freezeIf cond mid).symm, ?_⟩
  show (line.tally _).used = _
  rw [used_tally, counted.used, List.foldl_append]

/-- **A pass counts the items that it freezes in order.** -/
theorem CountedAs.flexPass {order : List Int} (counted : CountedAs order line items)
    (growing : Bool) (initial room : Int) :
    CountedAs (order ++ newSizes items (Line.flexPass growing initial room line items).2)
      (Line.flexPass growing initial room line items).1
      (Line.flexPass growing initial room line items).2 := by
  rw [flexPass_eq]
  generalize passSpace growing initial room items = free
  -- Handing out space freezes all items or none; the rest is frozen where targets are held.
  have cases_ : ∃ waiting, List.Forall₂ Item.Waits items waiting ∧
      (dealt growing free line items = line.freeze (fun _ => true) waiting ∨
        dealt growing free line items = (line, waiting)) := by
    rw [dealt]
    split
    · exact ⟨items, List.forall₂_same.2 fun item _ => ⟨rfl, rfl, fun _ => rfl⟩, .inr rfl⟩
    · exact apportion_cases growing free line items
  obtain ⟨waiting, waits, all | none⟩ := cases_
  · rw [all, settled_of_frozen]
    · exact counted.freeze waits _
    · rw [freeze_snd]
      exact List.forall_mem_map.2 fun item _ => by rw [Item.freezeIf_always]
  · rw [none]
    refine counted.freeze ?_ _
    rw [holdTargets_eq, List.forall₂_map_right_iff]
    exact waits.imp fun item after step => step.trans (waits_holdOpen after)

theorem CountedAs.flexPasses {order : List Int} (counted : CountedAs order line items)
    (growing : Bool) (initial room : Int) (n : Nat) :
    CountedAs
      (order ++ (visits growing initial room n line items).flatMap fun state =>
        newSizes state.2 (Line.flexPass growing initial room state.1 state.2).2)
      (Line.flexPasses growing initial room n line items).1
      (Line.flexPasses growing initial room n line items).2 := by
  induction n generalizing order line items with
  | zero =>
      rw [visits, List.flatMap_nil, List.append_nil]
      exact counted
  | succ n ih =>
      rw [visits, Line.flexPasses]
      by_cases all : items.length ≤ line.frozen
      · rw [if_pos all, if_pos all, List.flatMap_nil, List.append_nil]
        exact counted
      · rw [if_neg all, if_neg all]
        dsimp only
        rw [List.flatMap_cons, ← List.append_assoc]
        exact ih (counted.flexPass growing initial room)

/-- Sizes of the items in flow, in the order in which flexing a line freezes them. -/
def countingOrder (line : Line) (items : List Item) (available : Option Int) (gap : Int) : List Int :=
  frozenSizes (started (line.grows available gap) items) ++
    ((line.rounds items available gap).flatMap fun state =>
      newSizes state.2 (Line.flexPass (line.grows available gap)
        (line.initialSpace items available gap) (line.roomFor available gap) state.1 state.2).2) ++
    newSizes (line.passed items available gap) (line.flex items available gap).2

/-- **Flexing counts every item in flow once.** -/
theorem countingOrder_flex (line : Line) (items : List Item) (available : Option Int) (gap : Int) :
    (line.countingOrder items available gap).Perm (sizesInFlow (line.flex items available gap).2) ∧
      (line.flex items available gap).1.used = Pixel.add
        ((line.countingOrder items available gap).foldl Pixel.add 0)
        (Pixel.gapsBetween line.inFlow gap) := by
  have begins : CountedAs (frozenSizes (started (line.grows available gap) items))
      (line.opened (line.grows available gap) items) (started (line.grows available gap) items) :=
    ⟨List.Perm.refl _, used_tally _ _⟩
  have passed := begins.flexPasses (line.grows available gap)
    (line.initialSpace items available gap) (line.roomFor available gap) (items.length + 1)
  obtain ⟨perm, used⟩ := passed.freeze
    (List.forall₂_same.2 fun item _ => ⟨rfl, rfl, fun _ => rfl⟩) fun _ => true
  refine ⟨?_, congrArg (Pixel.add · _) used⟩
  have all : (line.flex items available gap).2.filter Item.frozen =
      (line.flex items available gap).2 := by
    rw [flex_snd, List.filter_eq_self]
    exact List.forall_mem_map.2 fun item _ => rfl
  rw [← all]
  exact perm

/-- The used size of a line is what its items take, if they can be added up. -/
theorem used_flex_of_running (line : Line) (items : List Item) (available : Option Int) (gap : Int)
    (running : Pixel.Running
      (line.countingOrder items available gap ++ [Pixel.gapsBetween line.inFlow gap])) :
    (line.flex items available gap).1.used =
      sumInFlow Item.target (line.flex items available gap).2 +
        Pixel.gapsBetween line.inFlow gap := by
  obtain ⟨perm, used⟩ := countingOrder_flex line items available gap
  have exact := running.foldl_add
  rw [List.foldl_append, List.sum_append, List.sum_singleton] at exact
  rw [used, ← sum_sizesInFlow, ← perm.sum_eq]
  exact exact

/-! ## The order of counting -/

theorem idle_same (items : List Item) : same.Idle items := fun _ _ drop => Bool.noConfusion drop

/-- What passes freeze depends on the line only through what it has counted. -/
theorem newSizes_visits (growing : Bool) (initial room : Int) (n : Nat)
    (level : Ahead 0 line line') (items : List Item) :
    ((visits growing initial room n line' items).flatMap fun state =>
        newSizes state.2 (Line.flexPass growing initial room state.1 state.2).2) =
      (visits growing initial room n line items).flatMap fun state =>
        newSizes state.2 (Line.flexPass growing initial room state.1 state.2).2 := by
  -- Lines that have counted the same make the same passes over the same items.
  induction n generalizing line line' items with
  | zero => rfl
  | succ n ih =>
      obtain ⟨passed, next⟩ := flexPass_items level (idle_same items) growing initial room
      have frozen := level.frozen
      rw [items_same, items_same] at passed
      rw [items_same] at next
      rw [visits, visits]
      by_cases all : items.length ≤ line.frozen
      · rw [if_pos all, if_pos (by omega)]
      · rw [if_neg all, if_neg (by omega)]
        dsimp only
        rw [List.flatMap_cons, List.flatMap_cons, passed, ih next]

theorem countingOrder_congr (main : line'.main = line.main) (inFlow : line'.inFlow = line.inFlow)
    (same : List.Forall₂ (fun item item' => item'.unflexed = item.unflexed) items items')
    (available : Option Int) (gap : Int) :
    line'.countingOrder items' available gap = line.countingOrder items available gap := by
  have room : line'.roomFor available gap = line.roomFor available gap := by
    rw [roomFor, roomFor, main, inFlow]
  have grows : line'.grows available gap = line.grows available gap := by
    rw [Line.grows, Line.grows, room, main, inFlow]
  have begins : started (line.grows available gap) items' =
      started (line.grows available gap) items := map_start_congr _ same
  have level : Ahead 0 (line.opened (line.grows available gap) items)
      (line'.opened (line.grows available gap) items') := by
    simp only [opened, begins]
    exact ⟨rfl, by rw [used_tally, used_tally]⟩
  have passed : line'.passed items' available gap = line.passed items available gap := by
    simp only [Line.passed, room, grows, begins, ← same.length_eq]
    have ended := (flexPasses_items (items.length + 1) level
      (idle_same (started (line.grows available gap) items)) (by rw [items_same]; rfl)
      (line.grows available gap) (freeSpace (line.roomFor available gap)
        (started (line.grows available gap) items)) (line.roomFor available gap)).1
    rwa [items_same, items_same] at ended
  simp only [countingOrder, rounds, initialSpace, room, grows, begins, flex_snd, passed,
    ← same.length_eq]
  rw [newSizes_visits _ _ _ _ level]

/-- **The used size of a line is read off the flexed items**, on any line that counts and
measures the same. -/
theorem used_flex_again (main : line'.main = line.main) (inFlow : line'.inFlow = line.inFlow)
    (items : List Item) (available : Option Int) (gap : Int)
    (running : Pixel.Running (line'.countingOrder (line.flex items available gap).2 available gap ++
      [Pixel.gapsBetween line'.inFlow gap])) :
    (line.flex items available gap).1.used =
      sumInFlow Item.target (line.flex items available gap).2 +
        Pixel.gapsBetween line'.inFlow gap := by
  have order := countingOrder_congr main inFlow (map_unflexed_flex line items available gap)
    available gap
  rw [order, inFlow] at running
  rw [inFlow]
  exact used_flex_of_running line items available gap running

/-- Sizes of flexed items that add up in every order do so in that of counting. -/
theorem running_of_summable (line : Line) (items : List Item) (available : Option Int) (gap : Int)
    (summable : Pixel.Summable (Pixel.gapsBetween line.inFlow gap ::
      sizesInFlow (line.flex items available gap).2)) :
    Pixel.Running
      (line.countingOrder items available gap ++ [Pixel.gapsBetween line.inFlow gap]) := by
  apply summable.running
  obtain ⟨perm, -⟩ := countingOrder_flex line items available gap
  exact (List.perm_append_singleton _ _).trans (perm.cons _)

theorem used_flex (line : Line) (items : List Item) (available : Option Int) (gap : Int)
    (summable : Pixel.Summable (Pixel.gapsBetween line.inFlow gap ::
      sizesInFlow (line.flex items available gap).2)) :
    (line.flex items available gap).1.used =
      (sizesInFlow (line.flex items available gap).2).sum + Pixel.gapsBetween line.inFlow gap := by
  have running := running_of_summable line items available gap summable
  rw [used_flex_of_running line items available gap running, sum_sizesInFlow]

end Line

end FlexLayout
