/-
# FlexLayout.Proofs.Spreading -- late height fills a column, and does not overfill it

The height that is left over in a column goes to growing children first.  They take their
shares of it at most, and these add up to what is handed out at most
(`Share.sum_deal_le`), so the column is not overfilled.  What they leave goes to the
`auto` margins, in shares that differ by one pixel at most and are all of it
(`evenly_autoShare`).

Stacking then lays the margin boxes of the children like tiles, from either end
(`marginBoxes_stack`): without overlap, the gap apart, and up to the other end if there is
an `auto` margin (`spread_stacks`).
-/
import FlexLayout.Proofs.Flexing.Sums
import FlexLayout.Proofs.Spreading.Steps
import Mathlib.Algebra.Order.BigOperators.Group.List

namespace FlexLayout

set_option autoImplicit false

/-! ## Shares -/

namespace Share

variable {α : Type} {claims : α → Bool} {weight : α → Int} {give : α → Int → α}

/-- A share is no more than what is left, and the rest is left after it. -/
theorem Fair.next_le {share : Share} (fair : share.Fair) (left : share.dealt ≤ share.amount)
    (claim : Int) :
    (share.next claim).1 + share.dealt ≤ (share.next claim).2.dealt ∧
      (share.next claim).2.dealt ≤ (share.next claim).2.amount ∧
      (share.next claim).2.amount = share.amount := by
  simp only [Share.next]
  by_cases none : share.total ≤ 0
  · rw [if_pos none]
    exact ⟨Int.le_of_eq (Int.zero_add _), left, rfl⟩
  · rw [if_neg none]
    have total : 0 < share.total := Int.not_le.1 none
    have weight := fair.weight total
    have most := reached_mono fair.amount total
      (Int.min_le_right (share.weight + max claim 0) share.total)
    have least := reached_mono fair.amount total
      (show share.weight ≤ min (share.weight + max claim 0) share.total by omega)
    rw [reached_total total] at most
    rw [← fair.dealt] at least
    refine ⟨?_, most, rfl⟩
    simp only [Pixel.fit?]
    split
    · exact Int.le_of_eq (Int.sub_add_cancel _ _)
    · rw [Option.getD_none, Int.zero_add]
      exact least

/-- **What is dealt out adds up to what is left at most**, if nothing grows by more than
its share. -/
theorem sum_deal_le {size : α → Int} {list : List α}
    (takes : ∀ a ∈ list, ∀ pixels, 0 ≤ pixels → size (give a pixels) ≤ size a + pixels)
    {share : Share} (fair : share.Fair) (left : share.dealt ≤ share.amount) :
    ((deal claims weight give share list).map size).sum ≤
      (list.map size).sum + (share.amount - share.dealt) := by
  induction list generalizing share with
  | nil =>
      rw [deal]
      simp only [List.map_nil, List.sum_nil]
      omega
  | cons a rest ih =>
      obtain ⟨here, later⟩ := List.forall_mem_cons.1 takes
      rw [deal]
      split
      · obtain ⟨nonneg, fair'⟩ := fair.next (weight a)
        obtain ⟨dealt, left', amount⟩ := fair.next_le left (weight a)
        have taken := here _ nonneg
        have rests := ih later fair' left'
        rw [List.map_cons, List.map_cons, List.sum_cons, List.sum_cons]
        omega
      · have rests := ih later fair left
        rw [List.map_cons, List.map_cons, List.sum_cons, List.sum_cons]
        omega

end Share

/-- With the same space everywhere, each tile starts that far after the one before. -/
theorem Span.isChain_tile_even {gap : Int} {placed : Nat} {pos : Int} {sizes : List Int} :
    (tile (fun _ => gap) placed pos sizes).IsChain fun span next => next.start = span.stop + gap := by
  induction sizes generalizing placed pos with
  | nil => exact .nil
  | cons size rest ih =>
      cases rest with
      | nil => exact .singleton _
      | cons second rest => exact .cons_cons rfl ih

/-- Shares of an amount are even: none is negative, earlier ones are no smaller, and larger
by one pixel at most; together they are the amount. -/
structure Evenly (amount : Int) (count : Nat) (share : Nat → Int) : Prop where
  nonneg : ∀ k, 0 ≤ share k
  descending : ∀ j k, j ≤ k → share k ≤ share j
  even : ∀ j k, j < count → k < count → share j ≤ share k + 1
  total : 0 < count → ((List.range count).map share).sum = amount

namespace Slack

variable {resolve : Resolver} {entries made : List Entry} {axes : Axes}

/-- What the `k`-th of some `auto` margins gets of an amount. -/
def autoShare (amount : Int) (autos k : Nat) : Int :=
  (if 0 < (autos : Int) then amount.tdiv autos else 0) +
    Pixel.bonus ((if 0 < (autos : Int) then amount.tmod autos else 0) - k)

theorem evenly_autoShare {amount : Int} (nonneg : 0 ≤ amount) (autos : Nat) :
    Evenly amount autos (autoShare amount autos) := by
  by_cases some : 0 < (autos : Int)
  · obtain ⟨share, spare, few, all⟩ := Spacing.tdiv_tmod autos nonneg some
    have each (k : Nat) : autoShare amount autos k =
        amount.tdiv autos + Pixel.bonus (amount.tmod autos - k) := by
      simp only [autoShare]
      rw [if_pos some, if_pos some]
    refine ⟨fun k => ?_, fun j k le => ?_, fun j k _ _ => ?_, fun _ => ?_⟩
    · rw [each, Pixel.bonus_eq]
      omega
    · rw [each, each, Pixel.bonus_eq, Pixel.bonus_eq]
      omega
    · rw [each, each, Pixel.bonus_eq, Pixel.bonus_eq]
      omega
    · rw [List.map_congr_left fun k _ => each k, Pixel.sum_shares _ _ spare,
        Int.min_eq_left (Int.le_of_lt few)]
      exact all
  · have each (k : Nat) : autoShare amount autos k = 0 := by
      simp only [autoShare]
      rw [if_neg some, if_neg some, Pixel.bonus_eq]
      omega
    refine ⟨fun k => ?_, fun j k _ => ?_, fun j k _ _ => ?_, fun more => absurd (Int.natCast_pos.2 more) some⟩
    · rw [each]
    · rw [each, each]
    · rw [each, each]
      decide

/-! ## Growth -/

/-- What may be handed to growing children is not more than what is left over. -/
theorem growRoom_le {extra factors : Int} (extra_nonneg : 0 ≤ extra) (nonneg : 0 ≤ factors) :
    0 ≤ growRoom extra factors ∧ growRoom extra factors ≤ extra := by
  simp only [growRoom]
  split
  · have part : 0 ≤ (extra * factors).tdiv 1024 :=
      Int.tdiv_nonneg (Int.mul_nonneg extra_nonneg nonneg) (by decide)
    have least : (extra * factors).tdiv 1024 ≤ extra :=
      calc (extra * factors).tdiv 1024
        _ ≤ (extra * 1024).tdiv 1024 :=
          Int.tdiv_le_tdiv (by decide) (Int.mul_le_mul_of_nonneg_left (by omega) extra_nonneg)
        _ = extra := Int.mul_tdiv_cancel _ (by decide)
    simp only [Pixel.fit?]
    split
    · exact ⟨part, least⟩
    · exact ⟨extra_nonneg, Int.le_refl _⟩
  · exact ⟨extra_nonneg, Int.le_refl _⟩

/-- **Children grow by what is left over at most.** -/
theorem growth_le (resolve : Resolver) {extra : Int} (nonneg : 0 ≤ extra)
    (range : ∀ entry ∈ entries, -2147483648 ≤ entry.height) :
    ((growEntries resolve extra entries).map Entry.height).sum ≤
      (entries.map Entry.height).sum + extra := by
  simp only [growEntries]
  split
  · omega
  · have factors : 0 ≤ (entries.map fun entry => entry.grow.raw).sum := by
      refine List.sum_nonneg fun raw member => ?_
      obtain ⟨entry, -, rfl⟩ := List.mem_map.1 member
      exact Factor.raw_ofStyle_nonneg _
    obtain ⟨room, most⟩ := growRoom_le nonneg factors
    refine Int.le_trans (Share.sum_deal_le (fun entry member pixels nonneg =>
      Entry.height_offer_le (range entry member) nonneg) (Share.fair_start room) room) ?_
    dsimp only
    omega

/-! ## Stacking -/

theorem heights_stack (s : Stacking) (pos remainder : Int) (entries : List Entry) :
    (stack s pos remainder entries).map Entry.height = entries.map Entry.height := by
  induction entries generalizing pos remainder with
  | nil => rfl
  | cons entry rest ih => exact congrArg (entry.height :: ·) (ih _ _)

/-- **The margin boxes of a stack are tiles**, seen from the end where it begins. -/
theorem marginBoxes_stack (column : axes.horizontal = false) {s : Stacking}
    (way : s.reversed = axes.reversed) (edge room : Int) {share : Nat → Int} {spare : Int}
    (shares : ∀ k : Nat, share k = s.share + Pixel.bonus (spare - k)) {pos remainder : Int}
    (autos placed : Nat) (left : remainder = max 0 (spare - autos)) :
    axes.marginBoxes edge room share autos ((stack s pos remainder entries).map Entry.frame) =
      Span.tile (fun _ => s.gap) placed (axes.distance edge room pos)
        (axes.marginSizes share autos (entries.map Entry.frame)) := by
  let track : MainTrack := ⟨0, s.reversed, s.gap, s.share, spare, {}, 0⟩
  induction entries generalizing pos remainder autos placed with
  | nil => rfl
  | cons entry rest ih =>
      obtain ⟨before, between⟩ := track.share_eq shares left (entry.frame.isAuto .top)
      obtain ⟨after, remains⟩ := track.share_eq shares between (entry.frame.isAuto .bottom)
      have outer (y : Int) : axes.mainOuter (entry.settled y).frame = axes.mainOuter entry.frame :=
        rfl
      have coordinate (y : Int) : axes.mainCoordinate (entry.settled y).frame = y :=
        Axes.mainCoordinate_column column _
      have auto (y : Int) (side : Side) :
          (entry.settled y).frame.isAuto side = entry.frame.isAuto side := rfl
      have fixed (y : Int) : (entry.settled y).frame.fixedMargin .top = entry.frame.fixedMargin .top :=
        rfl
      have border (y : Int) : (entry.settled y).frame.border.get .top = entry.frame.border.top := rfl
      simp only [MainTrack.marginShare, MainTrack.afterMargin, track] at before between after remains
      rw [stack, List.map_cons, List.map_cons, Axes.marginBoxes, Axes.marginSizes, Span.tile,
        Axes.lowMain_column column, Axes.highMain_column column, before, after, outer,
        Axes.mainOuter_column column, coordinate, auto, auto, fixed, border, way]
      refine congrArg₂ List.cons ?_ ((ih _ (placed + 1) remains).trans ?_)
      · simp only [Axes.span, Axes.distance]
        cases axes.reversed with
        | true =>
            simp only [if_true]
            congr 1 <;> omega
        | false =>
            simp only [Bool.false_eq_true, if_false]
            congr 1 <;> omega
      · congr 1
        simp only [Axes.distance]
        cases axes.reversed with
        | true =>
            simp only [if_true]
            omega
        | false =>
            simp only [Bool.false_eq_true, if_false]
            omega

/-- How margin boxes stand in a column of a height: one after the other from the end where
they begin, the gap apart, and not past the other end; up to it if there is an `auto`
margin. -/
structure Stacked (height gap : Int) (autos : Nat) (boxes : List Span) : Prop where
  start : ∀ first, boxes.head? = some first → first.start = 0
  apart : boxes.IsChain fun box next => next.start = box.stop + gap
  fits : ∀ last, boxes.getLast? = some last → last.stop ≤ height
  flush : 0 < autos → ∀ last, boxes.getLast? = some last → last.stop = height

/-- **Children that leave some height are stacked in the column.** -/
theorem stacked_restack (column : axes.horizontal = false) (container : Frame)
    (few : entries.length < 2147483648) {height gap left : Int} (nonneg : 0 ≤ left)
    (surplus : extra height gap entries = left) :
    Stacked height gap (entries.map Entry.autoMargins).sum
      (axes.marginBoxes container.padding.top height
        (autoShare left (entries.map Entry.autoMargins).sum) 0
        ((restack container axes.reversed height gap left entries).map Entry.frame)) := by
  have evenly := evenly_autoShare nonneg (entries.map Entry.autoMargins).sum
  have counted : ((entries.map Entry.frame).map axes.autoMainMargins).sum =
      (entries.map Entry.autoMargins).sum := by
    rw [List.map_map]
    exact congrArg List.sum (List.map_congr_left fun entry _ =>
      Axes.autoMainMargins_column column entry.frame)
  have outer : ((entries.map Entry.frame).map axes.mainOuter).sum =
      (entries.map fun entry => entry.frame.marginBoxHeight).sum := by
    rw [List.map_map]
    exact congrArg List.sum (List.map_congr_left fun entry _ =>
      Axes.mainOuter_column column entry.frame)
  simp only [extra] at surplus
  rw [Line.gapsBetween_eq few] at surplus
  simp only [restack]
  generalize (entries.map Entry.autoMargins).sum = autos at *
  have spare : 0 ≤ if 0 < (autos : Int) then left.tmod autos else 0 := by
    split
    · exact Int.tmod_nonneg _ nonneg
    · exact Int.le_refl 0
  have shares (k : Nat) : autoShare left autos k = _ := rfl
  rw [marginBoxes_stack column rfl container.padding.top height shares 0 0 (by omega)]
  have begin : axes.distance container.padding.top height
      (if axes.reversed = true then container.padding.top + height else container.padding.top) = 0 := by
    simp only [Axes.distance]
    cases axes.reversed <;> simp
  rw [begin]
  -- The stack leaves free what `auto` margins do not take.
  have stop {last : Span} (found : (Span.tile (fun _ => gap) 0 0
      (axes.marginSizes (autoShare left autos) 0 (entries.map Entry.frame))).getLast? = some last) :
      last.stop = height - left + ((List.range autos).map (autoShare left autos)).sum := by
    have stop := Span.stop_tile found
    simp only [Axes.sum_marginSizes, counted, outer, Axes.length_marginSizes, List.length_map,
      List.map_const', List.sum_replicate_int, List.length_range, Nat.zero_add] at stop
    rw [stop]
    show 0 + (_ + ((List.range autos).map (autoShare left autos)).sum) + _ = _
    omega
  refine ⟨fun first found => Span.start_tile found, ?_, fun last found => ?_, fun some last found => ?_⟩
  · exact Span.isChain_tile_even
  · rw [stop found]
    by_cases some : 0 < autos
    · rw [evenly.total some]
      omega
    · rw [Nat.eq_zero_of_not_pos some, List.range_zero, List.map_nil, List.sum_nil]
      omega
  · rw [stop found, evenly.total some]
    omega

/-! ## One column -/

/-- Lifted children take no less together, and if they take as much none has grown. -/
theorem heights_of_lifts (lifts : List.Forall₂ (Entry.Lifts resolve) entries made) :
    (entries.map Entry.height).sum ≤ (made.map Entry.height).sum ∧
      ((made.map Entry.height).sum = (entries.map Entry.height).sum →
        made.map Entry.height = entries.map Entry.height) := by
  induction lifts with
  | nil => exact ⟨Int.le_refl 0, fun _ => rfl⟩
  | @cons entry after _ _ first _ ih =>
      obtain ⟨le, same⟩ := ih
      have higher : entry.height ≤ after.height := first.lifted.higher
      simp only [List.map_cons, List.sum_cons, List.cons.injEq]
      refine ⟨by omega, fun sum => ⟨by omega, same (by omega)⟩⟩

/-- Growing children use up as much as they grow. -/
theorem extra_of_lifts (lifts : List.Forall₂ (Entry.Lifts resolve) entries made)
    (height gap : Int) : extra height gap made = extra height gap entries -
      ((made.map Entry.height).sum - (entries.map Entry.height).sum) := by
  have outer (entries : List Entry) : (entries.map fun entry => entry.frame.marginBoxHeight).sum =
      (entries.map Entry.height).sum +
        (entries.map fun entry => entry.frame.verticalSurround).sum := by
    rw [← List.sum_map_add]
    rfl
  have edges := map_of_lifts lifts (fun entry => entry.frame.verticalSurround) fun entry after lifts => by
    rw [lifts.lifted.same]
    rfl
  simp only [extra]
  rw [outer, outer, edges, lifts.length_eq]
  omega

/-- A column with height left over settles its stack, which lifts the children on it, and
leaves the frames of the others. -/
theorem stackOf_spread (resolve : Resolver) {box : Box} (flex : box.kind = .flex)
    (column : box.style.direction.axes.horizontal = false) {fragment : Fragment} {height : Int}
    (known : fragment.frame.height = some height)
    (more : 0 < leftOver resolve box.style box.children fragment height) :
    stackOf box.children (spread resolve box fragment) =
      settle resolve box.style fragment.frame height (stackOf box.children fragment) ∧
    List.Forall₂ (Entry.Lifts resolve) (stackOf box.children fragment)
      (stackOf box.children (spread resolve box fragment)) ∧
    ∀ i, i ∉ (stackOf box.children fragment).map Entry.child →
      ((spread resolve box fragment).children.map Fragment.frame)[i]? =
        (fragment.children.map Fragment.frame)[i]? := by
  rcases settle_cases resolve box.style fragment.frame height (stackOf box.children fragment) with
    ⟨none, -⟩ | ⟨-, lifts⟩
  · exact absurd more (Int.not_lt.2 none)
  · have frames := spread_frames resolve flex column fragment
    simp only [spreadHere, known] at frames
    have same : stackOf box.children (spread resolve box fragment) =
        settle resolve box.style fragment.frame height (stackOf box.children fragment) := by
      rw [stackOf, frames]
      exact inStackOrder_writeBack lifts
    refine ⟨same, same ▸ lifts, fun i out => ?_⟩
    rw [← child_eq_of_lifts lifts] at out
    rw [frames, List.getElem?_map, List.getElem?_map]
    exact congrArg (Option.map Fragment.frame) ((writeBack_lifts lifts).2 i out)

/-- **Late height fills a column, and does not overfill it.**  Children on the stack only
grow, within their maximum and by no more than what is left over, and the others stay.  If
one has grown or has an `auto` margin, they are stacked in the column again; `auto` margins
get even shares of what growing leaves, child by child and the upper one first. -/
theorem spread_stacks (resolve : Resolver) {box : Box} (flex : box.kind = .flex)
    (column : box.style.direction.axes.horizontal = false) {fragment : Fragment} {height : Int}
    (known : fragment.frame.height = some height)
    (few : (stackOf box.children fragment).length < 2147483648)
    (range : ∀ entry ∈ stackOf box.children fragment, Pixel.InRange entry.height)
    (more : 0 < leftOver resolve box.style box.children fragment height) :
    let before := stackOf box.children fragment
    let after := stackOf box.children (spread resolve box fragment)
    let growth := (after.map Entry.height).sum - (before.map Entry.height).sum
    let left := leftOver resolve box.style box.children fragment height - growth
    let autos := (before.map Entry.autoMargins).sum
    List.Forall₂ (Entry.Lifts resolve) before after ∧
    (∀ i, i ∉ before.map Entry.child →
      ((spread resolve box fragment).children.map Fragment.frame)[i]? =
        (fragment.children.map Fragment.frame)[i]?) ∧
    growth ≤ leftOver resolve box.style box.children fragment height ∧
    Evenly left autos (autoShare left autos) ∧
    (after.map Entry.height ≠ before.map Entry.height ∨ 0 < autos →
      Stacked height (box.style.gaps resolve fragment.frame).1 autos
        (box.style.direction.axes.marginBoxes fragment.frame.padding.top height
          (autoShare left autos) 0 (after.map Entry.frame))) := by
  intro before after growth left autos
  obtain ⟨settled, lifts, others⟩ := stackOf_spread resolve flex column known more
  let grown := growEntries resolve (leftOver resolve box.style box.children fragment height) before
  have grows : List.Forall₂ (Entry.Lifts resolve) before grown := lifts_growEntries resolve _ before
  have most : (grown.map Entry.height).sum ≤ (before.map Entry.height).sum +
      leftOver resolve box.style box.children fragment height :=
    growth_le resolve (Int.le_of_lt more) fun entry member => (range entry member).1
  -- Stacking the children again changes no heights.
  have made : after = if autos = 0 ∧ (grown.map Entry.height).sum - (before.map Entry.height).sum = 0
      then grown else restack fragment.frame box.style.direction.axes.reversed height
        (box.style.gaps resolve fragment.frame).1 (leftOver resolve box.style box.children fragment
          height - ((grown.map Entry.height).sum - (before.map Entry.height).sum)) grown :=
    settled.trans (if_neg (Int.not_le.2 more))
  have heights : after.map Entry.height = grown.map Entry.height := by
    rw [made]
    split
    · rfl
    · exact heights_stack _ _ _ grown
  have growth_eq : growth = (grown.map Entry.height).sum - (before.map Entry.height).sum :=
    congrArg (List.sum · - _) heights
  have nonneg : 0 ≤ left := by omega
  refine ⟨lifts, others, by omega, evenly_autoShare nonneg autos, fun some => ?_⟩
  have again : ¬(autos = 0 ∧ (grown.map Entry.height).sum - (before.map Entry.height).sum = 0) := by
    rintro ⟨none, same⟩
    rcases some with taller | more
    · rw [heights] at taller
      exact taller ((heights_of_lifts grows).2 (by omega))
    · omega
  have counted : (grown.map Entry.autoMargins).sum = autos := by
    refine congrArg List.sum (map_of_lifts grows Entry.autoMargins fun entry after lifts => ?_)
    simp only [Entry.autoMargins, Frame.isAuto]
    rw [lifts.lifted.same]
  rw [if_neg again, ← growth_eq] at made
  rw [made, ← counted]
  refine stacked_restack column fragment.frame (grows.length_eq ▸ few) nonneg ?_
  rw [extra_of_lifts grows, ← growth_eq]
  rfl

/-- A child grows up to its maximum, which leaves 70 pixels for three `auto` margins.  The
stack is built upward, and begins with the child of the least `order`. -/
theorem spread_stacks_upward :
    let resolve := ({} : Host).resolve
    let box : Box :=
      { kind := .flex
        style := { direction := .columnReverse, rowGap := some (.px 10) }
        children :=
          [{ style := { grow := 1, maxHeight := some (.px 60) } }, {},
            { style := { position := .absolute } }, { style := { order := -1 } }] }
    let sized (height : Int) (margin : Sides (Option Int)) : Fragment :=
      ⟨{ height := some height, margin := margin }, []⟩
    let fragment : Fragment :=
      ⟨{ height := some 200 },
        [sized 40 (.all (some 0)), sized 30 { Sides.all (some 0) with top := none, bottom := none },
          sized 50 (.all none), sized 20 { Sides.all (some 0) with top := none }]⟩
    (∀ entry ∈ stackOf box.children fragment, Pixel.InRange entry.height) ∧
      leftOver resolve box.style box.children fragment 200 = 90 ∧
      (spread resolve box fragment).children.map (fun child => (child.frame.y, child.frame.height)) =
        [(86, some 60), (23, some 30), (0, some 50), (180, some 20)] ∧
      (List.range 3).map (autoShare 70 3) = [24, 23, 23] ∧
      Stacked 200 10 3 (box.style.direction.axes.marginBoxes 0 200 (autoShare 70 3) 0
        ((stackOf box.children (spread resolve box fragment)).map Entry.frame)) := by
  intro resolve box sized fragment
  have before : stackOf box.children fragment =
      (entriesFrom 0 box.children (fragment.children.map Fragment.frame)).insertionSort
        Entry.Precedes := inStackOrder_eq_insertionSort _ _
  have range : ∀ entry ∈ stackOf box.children fragment, Pixel.InRange entry.height := by
    rw [before]
    decide +kernel
  have surplus : leftOver resolve box.style box.children fragment 200 = 90 := by
    rw [leftOver, before]
    decide +kernel
  have places : (spread resolve box fragment).children.map
      (fun child => (child.frame.y, child.frame.height)) =
        [(86, some 60), (23, some 30), (0, some 50), (180, some 20)] := by
    simp only [box, spread, spreadHere, inStackOrder_eq_insertionSort]
    decide +kernel
  have heights : (stackOf box.children fragment).map Entry.height = [20, 40, 30] := by
    rw [before]
    decide +kernel
  have autos : ((stackOf box.children fragment).map Entry.autoMargins).sum = 3 := by
    rw [before]
    decide +kernel
  have grown : (stackOf box.children (spread resolve box fragment)).map Entry.height =
      [20, 60, 30] := by
    simp only [box, stackOf, spread, spreadHere, inStackOrder_eq_insertionSort]
    decide +kernel
  obtain ⟨-, -, -, -, stacked⟩ := @spread_stacks resolve box rfl rfl fragment 200 rfl
    (by rw [before]; decide +kernel) range (by rw [surplus]; decide)
  rw [surplus, heights, autos, grown] at stacked
  exact ⟨range, surplus, places, by decide, stacked (.inr (by decide))⟩

end Slack

end FlexLayout
