/-
# FlexLayout.Proofs.Tiling.Spans -- margin boxes along a line

A walk along a line places margin boxes one after the other.  Measured from main-start
they are `Span`s, and `tile` is what a walk comes to, whatever its direction.  So the
margin boxes stand to each other and to the ends of the line as the sizes and the space
between them say (`Span.isChain_tile`, `Span.stop_tile`).
-/
import FlexLayout.Proofs.Tiling.Justify
import FlexLayout.Line.Placement
import Mathlib.Data.List.Chain

namespace FlexLayout

set_option autoImplicit false

/-- A stretch of a line, as distances from main-start. -/
structure Span where
  start : Int
  stop : Int
deriving DecidableEq, Repr

namespace Span

/-- Sizes laid one after the other, with `space k` left free after the `k`-th. -/
def tile (space : Nat → Int) : (placed : Nat) → (pos : Int) → List Int → List Span
  | _, _, [] => []
  | placed, pos, size :: rest =>
      ⟨pos, pos + size⟩ :: tile space (placed + 1) (pos + size + space (placed + 1)) rest

variable {space : Nat → Int} {placed : Nat} {pos : Int} {sizes : List Int}

theorem length_tile : (tile space placed pos sizes).length = sizes.length := by
  induction sizes generalizing placed pos with
  | nil => rfl
  | cons size rest ih => rw [tile, List.length_cons, List.length_cons, ih]

theorem start_tile {first : Span} (found : (tile space placed pos sizes).head? = some first) :
    first.start = pos := by
  cases sizes with
  | nil => simp [tile] at found
  | cons size rest =>
      rw [tile, List.head?_cons, Option.some.injEq] at found
      exact (congrArg Span.start found).symm

theorem le_start_tile (nonneg : ∀ k, 0 ≤ space k) {before after : List Span} {span : Span}
    (split : tile space placed pos sizes = before ++ span :: after)
    (sized : ∀ other ∈ before, other.start ≤ other.stop) : pos ≤ span.start := by
  induction sizes generalizing placed pos before with
  | nil => simp [tile] at split
  | cons size rest ih =>
      rw [tile] at split
      cases before with
      | nil =>
          rw [List.nil_append, List.cons.injEq] at split
          exact Int.le_of_eq (congrArg Span.start split.1)
      | cons first before =>
          rw [List.cons_append, List.cons.injEq] at split
          obtain ⟨rfl, later⟩ := split
          have first := sized _ List.mem_cons_self
          have rest := ih later fun other member => sized other (List.mem_cons_of_mem _ member)
          have gap := nonneg (placed + 1)
          dsimp only at first
          omega

/-- Neighbours are as far apart as the least space between two. -/
theorem isChain_tile {gap : Int}
    (least : ∀ k, k < placed + sizes.length → gap ≤ space k) :
    (tile space placed pos sizes).IsChain fun span next => span.stop + gap ≤ next.start := by
  induction sizes generalizing placed pos with
  | nil => exact .nil
  | cons size rest ih =>
      rw [tile]
      have least' (k : Nat) (before : k < placed + 1 + rest.length) : gap ≤ space k :=
        least k (by rw [List.length_cons]; omega)
      have later := @ih (placed + 1) (pos + size + space (placed + 1)) least'
      cases rest with
      | nil => exact .singleton _
      | cons second rest =>
          rw [tile] at later ⊢
          refine .cons_cons ?_ later
          have between := least (placed + 1) (by simp)
          dsimp only
          omega

theorem stop_tile {last : Span} (found : (tile space placed pos sizes).getLast? = some last) :
    last.stop = pos + sizes.sum +
      ((List.range (sizes.length - 1)).map fun k => space (placed + 1 + k)).sum := by
  induction sizes generalizing placed pos with
  | nil => simp [tile] at found
  | cons size rest ih =>
      cases rest with
      | nil =>
          simp only [tile, List.getLast?_singleton, Option.some.injEq] at found
          subst found
          simp
      | cons second rest =>
          rw [tile, tile, List.getLast?_cons_cons] at found
          have later := ih found
          have shift : (fun k => space (placed + 1 + (k + 1))) =
              fun k => space (placed + 1 + 1 + k) := by
            funext k
            congr 1
            omega
          simp only [later, List.length_cons, Nat.add_sub_cancel, List.range_succ_eq_map,
            List.map_cons, List.map_map, List.sum_cons, Function.comp_def, Nat.add_zero,
            Nat.succ_eq_add_one, shift]
          omega

end Span

namespace Axes

def mainCoordinate (axes : Axes) (frame : Frame) : Int :=
  if axes.horizontal then frame.x else frame.y

/-- The stretch between two coordinates, on a line of size `room` that begins at the
coordinate `edge`. -/
def span (axes : Axes) (edge room low high : Int) : Span :=
  if axes.reversed then ⟨edge + room - high, edge + room - low⟩ else ⟨low - edge, high - edge⟩

/-- The margin boxes of frames on a line.  `share k` is what the `k`-th `auto` margin
gets, and `autos` of them come before. -/
def marginBoxes (axes : Axes) (edge room : Int) (share : Nat → Int) :
    (autos : Nat) → List Frame → List Span
  | _, [] => []
  | autos, frame :: rest =>
      let lowAuto := frame.isAuto axes.lowMain
      let highAuto := frame.isAuto axes.highMain
      let before := if lowAuto then share autos else 0
      let after := if highAuto then share (autos + lowAuto.toNat) else 0
      let low := axes.mainCoordinate frame - frame.border.get axes.lowMain
        - frame.fixedMargin axes.lowMain - before
      axes.span edge room low (low + before + axes.mainOuter frame + after) ::
        axes.marginBoxes edge room share (autos + lowAuto.toNat + highAuto.toNat) rest

def marginSizes (axes : Axes) (share : Nat → Int) : (autos : Nat) → List Frame → List Int
  | _, [] => []
  | autos, frame :: rest =>
      let lowAuto := frame.isAuto axes.lowMain
      let highAuto := frame.isAuto axes.highMain
      let before := if lowAuto then share autos else 0
      let after := if highAuto then share (autos + lowAuto.toNat) else 0
      (before + after + axes.mainOuter frame) ::
        axes.marginSizes share (autos + lowAuto.toNat + highAuto.toNat) rest

theorem length_marginSizes (axes : Axes) (share : Nat → Int) (autos : Nat) (frames : List Frame) :
    (axes.marginSizes share autos frames).length = frames.length := by
  induction frames generalizing autos with
  | nil => rfl
  | cons frame rest ih => rw [marginSizes, List.length_cons, List.length_cons, ih]

theorem autoMainMargins_eq (axes : Axes) (frame : Frame) :
    axes.autoMainMargins frame =
      (frame.isAuto axes.lowMain).toNat + (frame.isAuto axes.highMain).toNat := by
  simp only [autoMainMargins, mainStart, mainEnd]
  cases axes.reversed with
  | true => exact Nat.add_comm _ _
  | false => rfl

theorem sum_range_add (share : Nat → Int) (autos here later : Nat) :
    ((List.range (here + later)).map fun k => share (autos + k)).sum =
      ((List.range here).map fun k => share (autos + k)).sum +
        ((List.range later).map fun k => share (autos + here + k)).sum := by
  rw [List.range_add, List.map_append, List.sum_append, List.map_map]
  simp only [Function.comp_def, Nat.add_assoc]

/-- The margin boxes are as large as the frames and the shares of their margins. -/
theorem sum_marginSizes (axes : Axes) (share : Nat → Int) (autos : Nat) (frames : List Frame) :
    (axes.marginSizes share autos frames).sum = (frames.map axes.mainOuter).sum +
      ((List.range (frames.map axes.autoMainMargins).sum).map fun k => share (autos + k)).sum := by
  induction frames generalizing autos with
  | nil => rfl
  | cons frame rest ih =>
      rw [marginSizes, List.sum_cons, ih, List.map_cons, List.sum_cons, List.map_cons, List.sum_cons,
        sum_range_add, autoMainMargins_eq, Nat.add_assoc]
      cases frame.isAuto axes.lowMain <;> cases frame.isAuto axes.highMain <;>
        simp [List.range_succ] <;> omega

/-! ## Columns -/

section Column

variable {axes : Axes} (vertical : axes.horizontal = false)

include vertical

theorem lowMain_column : axes.lowMain = .top := by
  rw [lowMain, vertical]
  rfl

theorem highMain_column : axes.highMain = .bottom := by
  rw [highMain, vertical]
  rfl

theorem mainCoordinate_column (frame : Frame) : axes.mainCoordinate frame = frame.y := by
  rw [mainCoordinate, vertical]
  rfl

theorem mainOuter_column (frame : Frame) : axes.mainOuter frame = frame.marginBoxHeight := by
  rw [mainOuter, mainSize, mainSize?, mainSurround, vertical]
  rfl

theorem autoMainMargins_column (frame : Frame) :
    axes.autoMainMargins frame = (frame.isAuto .top).toNat + (frame.isAuto .bottom).toNat := by
  rw [autoMainMargins_eq, lowMain_column vertical, highMain_column vertical]

end Column

end Axes

end FlexLayout
