/-
# FlexLayout.Proofs.Tiling.Walk -- the walk along a line lays tiles

Items stand where the walk puts them (`MainTrack.Walked`).  Seen from main-start, in
either direction, their margin boxes then are tiles (`marginBoxes_walked`), with the
spaces of the track between them.  All spaces together are the gaps and what justified
space puts between neighbours (`sum_spaceAfter`).
-/
import FlexLayout.Proofs.Children.Hosted
import FlexLayout.Proofs.Tiling.Spans
import Mathlib.Algebra.BigOperators.Group.List.Basic

namespace FlexLayout

set_option autoImplicit false

namespace Frame.SameEdges

variable {frame other : Frame}

theorem fixedMargin (same : frame.SameEdges other) (side : Side) :
    other.fixedMargin side = frame.fixedMargin side := by
  simp only [Frame.fixedMargin]
  rw [same.margin]

theorem isAuto (same : frame.SameEdges other) (side : Side) :
    other.isAuto side = frame.isAuto side := by
  simp only [Frame.isAuto]
  rw [same.margin]

theorem mainSurround (same : frame.SameEdges other) (axes : Axes) :
    axes.mainSurround other = axes.mainSurround frame := by
  simp only [Axes.mainSurround, Frame.horizontalSurround, Frame.verticalSurround,
    Frame.horizontalInset, Frame.verticalInset, same.fixedMargin, same.padding, same.border]

end Frame.SameEdges

namespace Axes

structure SameExtent (axes : Axes) (frame other : Frame) : Prop extends frame.SameEdges other where
  size : axes.mainSize other = axes.mainSize frame

namespace SameExtent

variable {axes : Axes} {frame other : Frame}

theorem refl (axes : Axes) (frame : Frame) : axes.SameExtent frame frame := ⟨⟨rfl, rfl, rfl⟩, rfl⟩

theorem trans {last : Frame} (same : axes.SameExtent frame other)
    (next : axes.SameExtent other last) : axes.SameExtent frame last :=
  ⟨⟨next.margin.trans same.margin, next.padding.trans same.padding,
    next.border.trans same.border⟩, next.size.trans same.size⟩

theorem mainOuter (same : axes.SameExtent frame other) :
    axes.mainOuter other = axes.mainOuter frame := by
  rw [Axes.mainOuter, Axes.mainOuter, same.size, same.mainSurround]

theorem autoMainMargins (same : axes.SameExtent frame other) :
    axes.autoMainMargins other = axes.autoMainMargins frame := by
  simp only [Axes.autoMainMargins]
  rw [same.isAuto, same.isAuto]

theorem step (same : axes.SameExtent frame other) (track : MainTrack) (walk : MainWalk)
    (item : Item) : track.step axes walk item other = track.step axes walk item frame := by
  simp only [MainTrack.step]
  rw [same.fixedMargin, same.border, same.isAuto, same.isAuto, same.mainOuter]

end SameExtent

theorem autoMainMargins_eq_zero {axes : Axes} {frame : Frame} : axes.autoMainMargins frame = 0 ↔
    frame.isAuto axes.lowMain = false ∧ frame.isAuto axes.highMain = false := by
  rw [autoMainMargins_eq, Nat.add_eq_zero_iff, Bool.toNat_eq_zero, Bool.toNat_eq_zero]

/-- Distance of a coordinate from main-start, on a line of size `room` that begins at
the coordinate `edge`. -/
def distance (axes : Axes) (edge room coordinate : Int) : Int :=
  if axes.reversed then edge + room - coordinate else coordinate - edge

end Axes

namespace MainTrack

variable {track : MainTrack} {axes : Axes} {walk : MainWalk}

def framesInFlow (entries : List (Item × Frame)) : List Frame :=
  (entries.filter fun entry => !entry.1.outOfFlow).map Prod.snd

/-- The items stand where the walk puts them. -/
def Walked (track : MainTrack) (axes : Axes) (walk : MainWalk) (entries : List (Item × Frame)) :
    Prop :=
  track.coordinates axes walk entries = entries.map fun entry => axes.mainCoordinate entry.2

theorem walked_cons {item : Item} {frame : Frame} {rest : List (Item × Frame)} :
    track.Walked axes walk ((item, frame) :: rest) ↔
      (track.step axes walk item frame).1 = axes.mainCoordinate frame ∧
        track.Walked axes (track.step axes walk item frame).2 rest := by
  simp only [Walked]
  rw [coordinates, List.map_cons, List.cons.injEq]

/-- A share of the free space, and what is left of the remainder after it. -/
theorem share_eq {share : Nat → Int}
    (shares : ∀ k : Nat, share k = track.autoShare + Pixel.bonus (track.autoRemainder - k))
    {remainder : Int} {autos : Nat} (left : remainder = max 0 (track.autoRemainder - autos))
    (auto : Bool) :
    track.marginShare auto remainder = (if auto then share autos else 0) ∧
      afterMargin auto remainder = max 0 (track.autoRemainder - (autos + auto.toNat : Nat)) := by
  simp only [marginShare, afterMargin]
  rw [shares, left, Pixel.bonus_eq, Pixel.bonus_eq]
  cases auto with
  | true =>
      simp only [if_true, Bool.toNat_true]
      omega
  | false => simp

/-- **The margin boxes of items that stand where the walk puts them are tiles.** -/
theorem marginBoxes_walked (way : track.reversed = axes.reversed) (edge room : Int)
    {share : Nat → Int}
    (shares : ∀ k : Nat, share k = track.autoShare + Pixel.bonus (track.autoRemainder - k))
    {entries : List (Item × Frame)} {autos : Nat}
    (left : walk.remainder = max 0 (track.autoRemainder - autos))
    (walked : track.Walked axes walk entries) :
    axes.marginBoxes edge room share autos (framesInFlow entries) =
      Span.tile track.spaceAfter walk.placed (axes.distance edge room walk.pos)
        (axes.marginSizes share autos (framesInFlow entries)) := by
  induction entries generalizing walk autos with
  | nil => rfl
  | cons entry rest ih =>
      obtain ⟨item, frame⟩ := entry
      obtain ⟨here, later⟩ := walked_cons.1 walked
      simp only [framesInFlow] at ih ⊢
      simp only [step] at here later
      cases out : item.outOfFlow with
      | true =>
          -- The walk does not move, and the item has no margin box.
          rw [out, if_pos rfl] at later
          rw [List.filter_cons, if_neg (by simp [out])]
          exact ih left later
      | false =>
          rw [out, if_neg Bool.false_ne_true] at here later
          rw [List.filter_cons, if_pos (by simp [out]), List.map_cons, Axes.marginBoxes,
            Axes.marginSizes, Span.tile]
          obtain ⟨before, between⟩ := share_eq shares left (frame.isAuto axes.lowMain)
          obtain ⟨after, remains⟩ := share_eq shares between (frame.isAuto axes.highMain)
          dsimp only at here later
          rw [before, after] at here later
          rw [ih remains later]
          simp only [Axes.distance, Axes.span]
          rw [way] at here ⊢
          cases toward : axes.reversed with
          | true =>
              simp only [toward, if_true] at here ⊢
              rw [← here]
              congr 2 <;> omega
          | false =>
              simp only [toward, Bool.false_eq_true, if_false] at here ⊢
              rw [← here]
              congr 2 <;> omega

theorem coordinates_congr {items : List Item} {before after : Item → Frame}
    (same : ∀ item ∈ items, axes.SameExtent (before item) (after item)) :
    track.coordinates axes walk (items.map fun item => (item, after item)) =
      track.coordinates axes walk (items.map fun item => (item, before item)) := by
  induction items generalizing walk with
  | nil => rfl
  | cons item rest ih =>
      obtain ⟨first, sames⟩ := List.forall_mem_cons.1 same
      rw [List.map_cons, List.map_cons, coordinates, coordinates, first.step, ih sames]

theorem Walked.congr {items : List Item} {before after : Item → Frame}
    (same : ∀ item ∈ items, axes.SameExtent (before item) (after item))
    (stays : ∀ item ∈ items, axes.mainCoordinate (after item) = axes.mainCoordinate (before item))
    (walked : track.Walked axes walk (items.map fun item => (item, before item))) :
    track.Walked axes walk (items.map fun item => (item, after item)) := by
  simp only [Walked] at walked ⊢
  rw [coordinates_congr same, walked, List.map_map, List.map_map]
  exact List.map_congr_left fun item member => (stays item member).symm

theorem spaceAfter_of_lt {placed : Nat} (more : placed + 1 < track.inFlow) :
    track.spaceAfter (placed + 1) =
      track.spacing.between + Pixel.bonus (track.spacing.spare - placed) + track.gap := by
  simp only [spaceAfter]
  rw [if_pos more, Pixel.bonus_eq]
  split <;> omega

theorem gap_le_spaceAfter (nonneg : track.spacing.Nonneg) {placed : Nat}
    (more : placed < track.inFlow) : track.gap ≤ track.spaceAfter placed := by
  have between := nonneg.between
  simp only [spaceAfter]
  rw [if_pos more]
  split <;> omega

theorem spaceAfter_nonneg (nonneg : track.spacing.Nonneg) (gap : 0 ≤ track.gap) (placed : Nat) :
    0 ≤ track.spaceAfter placed := by
  by_cases more : placed < track.inFlow
  · exact Int.le_trans gap (gap_le_spaceAfter nonneg more)
  · exact Int.le_of_eq (if_neg more).symm

/-- **All space between neighbours: what is justified, and the gaps.** -/
theorem sum_spaceAfter (nonneg : track.spacing.Nonneg) :
    ((List.range (track.inFlow - 1)).map fun k => track.spaceAfter (k + 1)).sum =
      track.spacing.spread track.inFlow + ((track.inFlow - 1 : Nat) : Int) * track.gap := by
  have each : (List.range (track.inFlow - 1)).map (fun k => track.spaceAfter (k + 1)) =
      (List.range (track.inFlow - 1)).map fun k : Nat =>
        track.spacing.between + Pixel.bonus (track.spacing.spare - k) + track.gap := by
    refine List.map_congr_left fun k member => spaceAfter_of_lt ?_
    have := List.mem_range.1 member
    omega
  rw [each, List.sum_map_add, Pixel.sum_shares _ _ nonneg.spare, List.map_const',
    List.sum_replicate_int, List.length_range, Spacing.spread]

end MainTrack

end FlexLayout
