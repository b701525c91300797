/-
# FlexLayout.Proofs.Mirroring.Walks -- the same line walked from both ends

Two walks go over the items of a line from opposite ends.  As long as no margin is `auto`,
one goes forward what the other goes back, so their positions keep the same sum
(`MainTrack.step_opposite`).  Where they put an item, then, its two margin boxes are mirror
images (`MainTrack.walked_opposite`); on a line of a container and the same line of the
container turned around, they are in the room that the line is laid out in
(`Line.Laid.mirrored`).

An `auto` margin stays on its side of the item, whichever way the line is walked, so it pushes
the item to the same end both times.
-/
import FlexLayout.Proofs.Mirroring.Turned
import FlexLayout.Proofs.Tiling.Tiled

namespace FlexLayout

set_option autoImplicit false

/-- What the low edges of an item take up before its main coordinate. -/
def Axes.lowInset (axes : Axes) (frame : Frame) : Int :=
  frame.fixedMargin axes.lowMain + frame.border.get axes.lowMain

namespace MainTrack

variable {track other : MainTrack} {axes : Axes} {walk walk' : MainWalk}

/-- Two tracks with the same spaces, walked in opposite directions. -/
structure Opposite (track other : MainTrack) : Prop where
  reversed : other.reversed = !track.reversed
  spaceAfter : ∀ placed, other.spaceAfter placed = track.spaceAfter placed

/-- A step over an item in flow without `auto` margins, in either direction. -/
theorem step_of_fixed (track : MainTrack) (walk : MainWalk) {item : Item} {frame : Frame}
    (flows : item.outOfFlow = false) (fixed : axes.autoMainMargins frame = 0) :
    (track.step axes walk item frame).2.placed = walk.placed + 1 ∧
      if track.reversed then
        (track.step axes walk item frame).1 =
            walk.pos - axes.mainOuter frame + axes.lowInset frame ∧
          (track.step axes walk item frame).2.pos =
            walk.pos - axes.mainOuter frame - track.spaceAfter (walk.placed + 1)
      else
        (track.step axes walk item frame).1 = walk.pos + axes.lowInset frame ∧
          (track.step axes walk item frame).2.pos =
            walk.pos + axes.mainOuter frame + track.spaceAfter (walk.placed + 1) := by
  obtain ⟨low, high⟩ := Axes.autoMainMargins_eq_zero.1 fixed
  simp only [step, flows, low, high, marginShare, Axes.lowInset, Bool.false_eq_true, if_false]
  refine ⟨trivial, ?_⟩
  cases track.reversed with
  | true =>
      rw [if_pos rfl, if_pos rfl, if_pos rfl]
      exact ⟨by omega, by omega⟩
  | false =>
      rw [if_neg Bool.false_ne_true, if_neg Bool.false_ne_true, if_neg Bool.false_ne_true]
      exact ⟨by omega, by omega⟩

/-- **Walks from opposite ends keep the sum of their positions**, and put an item that has no
`auto` margins at mirror images of each other. -/
theorem step_opposite (opposite : Opposite track other) (placed : walk'.placed = walk.placed)
    {item : Item} {frame frame' : Frame} (same : axes.SameExtent frame frame')
    (fixed : item.outOfFlow = false → axes.autoMainMargins frame = 0) :
    (other.step axes walk' item frame').2.placed = (track.step axes walk item frame).2.placed ∧
      (track.step axes walk item frame).2.pos + (other.step axes walk' item frame').2.pos =
        walk.pos + walk'.pos ∧
      (item.outOfFlow = false →
        (track.step axes walk item frame).1 + (other.step axes walk' item frame').1 =
          walk.pos + walk'.pos + 2 * axes.lowInset frame - axes.mainOuter frame) := by
  rw [same.step]
  cases out : item.outOfFlow with
  | true =>
      rw [step_of_outOfFlow track axes walk out, step_of_outOfFlow other axes walk' out]
      exact ⟨placed, rfl, fun flows => Bool.noConfusion flows⟩
  | false =>
      obtain ⟨count, here⟩ := step_of_fixed track walk out (fixed out)
      obtain ⟨count', there⟩ := step_of_fixed other walk' out (fixed out)
      rw [opposite.reversed, opposite.spaceAfter, placed] at there
      refine ⟨by rw [count, count', placed], ?_⟩
      -- One walk comes before the margin box of the item, and the other after it.
      cases way : track.reversed with
      | true =>
          rw [way, if_pos rfl] at here
          rw [way, if_neg (by decide)] at there
          exact ⟨by omega, fun _ => by omega⟩
      | false =>
          rw [way, if_neg Bool.false_ne_true] at here
          rw [way, if_pos (by decide)] at there
          exact ⟨by omega, fun _ => by omega⟩

theorem walked_facing {reversed : Bool} {entries : List (Item × Frame)}
    (walked : track.Walked (axes.facing reversed) walk entries) : track.Walked axes walk entries := by
  simp only [Walked] at walked ⊢
  rw [← map_snd_moves, moves_facing, map_snd_moves] at walked
  exact walked

/-- **Items that walks from opposite ends put in place stand at mirror images.** -/
theorem walked_opposite (opposite : Opposite track other) (placed : walk'.placed = walk.placed)
    {items : List Item} {frames frames' : Item → Frame}
    (same : ∀ item ∈ items, axes.SameExtent (frames item) (frames' item))
    (fixed : ∀ item ∈ items, item.outOfFlow = false → axes.autoMainMargins (frames item) = 0)
    (walked : track.Walked axes walk (items.map fun item => (item, frames item)))
    (walked' : other.Walked axes walk' (items.map fun item => (item, frames' item))) :
    ∀ item ∈ items, item.outOfFlow = false →
      axes.mainCoordinate (frames item) + axes.mainCoordinate (frames' item) =
        walk.pos + walk'.pos + 2 * axes.lowInset (frames item) - axes.mainOuter (frames item) := by
  induction items generalizing walk walk' with
  | nil => exact fun item member => absurd member List.not_mem_nil
  | cons first rest ih =>
      obtain ⟨sameFirst, sameRest⟩ := List.forall_mem_cons.1 same
      obtain ⟨fixedFirst, fixedRest⟩ := List.forall_mem_cons.1 fixed
      obtain ⟨here, later⟩ := walked_cons.1 walked
      obtain ⟨here', later'⟩ := walked_cons.1 walked'
      obtain ⟨count, sum, images⟩ := step_opposite opposite placed sameFirst fixedFirst
      have others := ih count sameRest fixedRest later later'
      rw [sum] at others
      refine List.forall_mem_cons.2 ⟨fun flows => ?_, others⟩
      rw [← here, ← here']
      exact images flows

end MainTrack

namespace Line

variable {container : Container} {filled : FilledLine} {frames frames' : Item → Frame}

/-- The same line is walked from the other end when its container is turned around. -/
theorem opposite_ofLine (container : Container) (line : Line) :
    (MainTrack.ofLine container line).Opposite (MainTrack.ofLine container.turned line) where
  reversed := by
    show container.turned.axes.reversed = !container.axes.reversed
    rw [container.axes_turned]
    rfl
  spaceAfter _ := rfl

/-- From both ends together, a line begins at both ends of its room. -/
theorem start_ofLine_turned (container : Container) (line : Line) :
    (MainTrack.ofLine container line).start + (MainTrack.ofLine container.turned line).start =
      2 * container.frame.padding.get container.axes.lowMain + line.room container := by
  have lead : (MainTrack.ofLine container.turned line).spacing.lead =
      (MainTrack.ofLine container line).spacing.lead := rfl
  have edge (reversed : Bool) :
      container.turned.frame.padding.get (container.axes.facing reversed).lowMain =
        container.frame.padding.get container.axes.lowMain := rfl
  have room : line.room container.turned = line.room container := rfl
  have way' : (container.axes.facing !container.axes.reversed).reversed =
      !container.axes.reversed := rfl
  rw [start_ofLine, start_ofLine, container.axes_turned, lead, edge, room, way']
  cases way : container.axes.reversed with
  | true =>
      rw [if_pos rfl, if_neg (by decide)]
      omega
  | false =>
      rw [if_neg Bool.false_ne_true, if_pos (by decide)]
      omega

theorem Laid.fixed (laid : Laid container filled frames) (none : filled.line.autoMargins = 0) :
    ∀ item ∈ filled.items, item.outOfFlow = false →
      container.axes.autoMainMargins (frames item) = 0 := by
  intro item member flows
  have sum := laid.autos.symm.trans none
  apply List.sum_eq_zero_iff_forall_eq_nat.1 sum
  refine List.mem_map_of_mem (List.mem_map_of_mem (List.mem_filter.2 ⟨member, ?_⟩))
  rw [flows]
  rfl

/-- **An item stands at the mirror image of where it stands in the container turned around.** -/
theorem Laid.mirrored (laid : Laid container filled frames)
    (laid' : Laid container.turned filled frames')
    (same : ∀ item ∈ filled.items, container.axes.SameExtent (frames item) (frames' item))
    (none : filled.line.autoMargins = 0) :
    ∀ item ∈ filled.items, item.outOfFlow = false →
      container.axes.mainCoordinate (frames item) + container.axes.mainCoordinate (frames' item) =
        2 * container.frame.padding.get container.axes.lowMain + filled.line.room container +
          2 * container.axes.lowInset (frames item) - container.axes.mainOuter (frames item) := by
  have walked' := laid'.walked
  rw [container.axes_turned] at walked'
  have begun : (MainTrack.ofLine container.turned filled.line).begin.placed =
      (MainTrack.ofLine container filled.line).begin.placed := rfl
  have images := MainTrack.walked_opposite (opposite_ofLine container filled.line) begun same
    (laid.fixed none) laid.walked (MainTrack.walked_facing walked')
  intro item member flows
  rw [images item member flows, ← start_ofLine_turned]
  rfl

end Line

end FlexLayout
