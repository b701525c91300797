/-
# FlexLayout.Proofs.Tiling.Tiled -- how the margin boxes of a line stand

A line is laid out in some room: the main size of the container or, where that is not
definite, the line's own.  What its items do not use is free.  `Line.Tiled` says how the
margin boxes of the items then stand to each other and to the two ends of the room, and
`tiled_of_laid` that they do on every line whose items were walked at their target
sizes (`Line.Laid`).
-/
import FlexLayout.Proofs.Flexing.Tally
import FlexLayout.Proofs.Stages.Breaking
import FlexLayout.Proofs.Tiling.Walk

namespace FlexLayout

set_option autoImplicit false

namespace Line

def room (container : Container) (line : Line) : Int := container.mainSpace.getD line.used

/-- Main size that the items of a line leave free. -/
def free (container : Container) (line : Line) : Int := max 0 (line.room container - line.used)

/-- What the `k`-th `auto` margin of a line gets: equal shares of the free space, and
one pixel more for each of the first until no pixel is left. -/
def autoShare (container : Container) (line : Line) (k : Nat) : Int :=
  if 0 < line.autoMargins then
    (line.free container).tdiv line.autoMargins +
      (if (k : Int) < (line.free container).tmod line.autoMargins then 1 else 0)
  else 0

/-- The margin boxes of frames on a line, with the shares that `auto` margins get, as
distances from the content edge at main-start. -/
def marginBoxes (container : Container) (line : Line) (frames : List Frame) : List Span :=
  container.axes.marginBoxes (container.frame.padding.get container.axes.lowMain)
    (line.room container) (line.autoShare container) 0 frames

/-- How the margin boxes of a line's items stand to each other and to the ends of the
room that the line is laid out in. -/
structure Tiled (container : Container) (line : Line) (boxes : List Span) : Prop where
  /-- Every item in flow has its margin box. -/
  count : boxes.length = line.inFlow
  /-- A margin box starts inside, unless one of negative size comes before it. -/
  inside : ∀ before box after, boxes = before ++ box :: after →
    (∀ other ∈ before, other.start ≤ other.stop) → 0 ≤ box.start
  /-- Neighbours are at least the gap apart. -/
  apart : boxes.IsChain fun box next => box.stop + container.mainGap ≤ next.start
  /-- The last margin box ends inside. -/
  fits : ∀ last, boxes.getLast? = some last → last.stop ≤ line.room container
  /-- Nothing is left after the last one when margins or all spaces between items take
  what is free, or when all of it goes to the front. -/
  flush : 0 < line.autoMargins ∨ container.style.justify = .flexEnd ∨
      container.style.justify = .spaceBetween ∧ 1 < line.inFlow →
    ∀ last, boxes.getLast? = some last → last.stop = line.room container
  /-- As much is left at the end as at the start, up to a pixel, when items are centered
  or have space around them. -/
  even : line.autoMargins = 0 → container.style.justify = .center ∨
      container.style.justify = .spaceAround ∨ container.style.justify = .spaceEvenly →
    ∀ first last, boxes.head? = some first → boxes.getLast? = some last →
      line.room container - last.stop ≤ first.start ∧
        first.start ≤ line.room container - last.stop + 1

/-! ## Where the free space goes -/

variable {container : Container} {line : Line}

def trailing (container : Container) (line : Line) : Int :=
  if line.autoMargins = 0 then
    Spacing.rest container.style.justify (line.free container) line.inFlow
  else 0

theorem free_nonneg (container : Container) (line : Line) : 0 ≤ line.free container :=
  Int.le_max_left _ _

theorem trailing_nonneg (container : Container) {line : Line} (some : 0 < line.inFlow) :
    0 ≤ line.trailing container := by
  simp only [trailing]
  split
  · exact Spacing.rest_nonneg _ (free_nonneg container line) some
  · exact Int.le_refl 0

/-- What is free is justified unless margins take it. -/
theorem spacing_ofLine (container : Container) (line : Line) :
    (MainTrack.ofLine container line).spacing =
      if line.autoMargins = 0 then
        Spacing.justify container.style.justify (line.free container) line.inFlow
      else {} := by
  show (if 0 < line.free container ∧ (line.autoMargins : Int) = 0 then _ else _) = _
  by_cases none : line.autoMargins = 0
  · have nonneg := free_nonneg container line
    by_cases some : 0 < line.free container
    · rw [if_pos ⟨some, by omega⟩, if_pos none]
      rfl
    · rw [if_neg fun both => some both.1, if_pos none, show line.free container = 0 by omega,
        Spacing.justify_zero]
  · rw [if_neg fun both => none (by omega), if_neg none]

theorem spacing_nonneg (container : Container) {line : Line} (few : line.inFlow < 2147483648) :
    (MainTrack.ofLine container line).spacing.Nonneg := by
  rw [spacing_ofLine]
  split
  · exact Spacing.justify_nonneg _ (free_nonneg container line) few
  · exact Spacing.nonneg_default

section

variable (container : Container) (line : Line)

theorem autoShare_ofLine : (MainTrack.ofLine container line).autoShare =
    if 0 < line.free container ∧ 0 < (line.autoMargins : Int) then
      (line.free container).tdiv line.autoMargins
    else 0 := rfl

theorem autoRemainder_ofLine : (MainTrack.ofLine container line).autoRemainder =
    if 0 < line.free container ∧ 0 < (line.autoMargins : Int) then
      (line.free container).tmod line.autoMargins
    else 0 := rfl

theorem start_ofLine : (MainTrack.ofLine container line).start =
    if container.axes.reversed then
      container.frame.padding.get container.axes.lowMain + line.room container -
        (MainTrack.ofLine container line).spacing.lead
    else
      container.frame.padding.get container.axes.lowMain +
        (MainTrack.ofLine container line).spacing.lead := rfl

theorem autoShare_eq (k : Nat) :
    line.autoShare container k = (MainTrack.ofLine container line).autoShare +
      Pixel.bonus ((MainTrack.ofLine container line).autoRemainder - k) := by
  have nonneg := free_nonneg container line
  rw [autoShare_ofLine, autoRemainder_ofLine, Pixel.bonus_eq, autoShare]
  generalize line.free container = free at nonneg ⊢
  by_cases some : 0 < line.autoMargins
  · by_cases more : 0 < free
    · have both : 0 < free ∧ 0 < (line.autoMargins : Int) := ⟨more, by omega⟩
      rw [if_pos some, if_pos both, if_pos both]
      split <;> omega
    · have none : ¬(0 < free ∧ 0 < (line.autoMargins : Int)) := fun both => more both.1
      rw [if_pos some, if_neg none, if_neg none, show free = 0 by omega, Int.zero_tdiv,
        Int.zero_tmod, if_neg (by omega)]
      omega
  · have none : ¬(0 < free ∧ 0 < (line.autoMargins : Int)) := fun both => some (by omega)
    rw [if_neg some, if_neg none, if_neg none]
    omega

theorem autoRemainder_nonneg : 0 ≤ (MainTrack.ofLine container line).autoRemainder := by
  rw [autoRemainder_ofLine]
  split
  · exact Int.tmod_nonneg _ (free_nonneg container line)
  · exact Int.le_refl 0

theorem sum_autoShare :
    ((List.range line.autoMargins).map (line.autoShare container)).sum =
      if line.autoMargins = 0 then 0 else line.free container := by
  by_cases none : line.autoMargins = 0
  · rw [if_pos none, none]
    rfl
  · have positive : (0 : Int) < line.autoMargins := by omega
    obtain ⟨-, left, less, whole⟩ :=
      Spacing.tdiv_tmod line.autoMargins (free_nonneg container line) positive
    have each : line.autoShare container = fun k : Nat =>
        (line.free container).tdiv line.autoMargins +
          Pixel.bonus ((line.free container).tmod line.autoMargins - k) := by
      funext k
      simp only [autoShare]
      rw [if_pos (by omega), Pixel.bonus_eq]
      split <;> omega
    rw [each, Pixel.sum_shares _ _ left, if_neg none]
    omega

end

/-! ## Lines whose items were walked -/

def framesInFlow (frames : Item → Frame) (items : List Item) : List Frame :=
  (items.filter fun item => !item.outOfFlow).map frames

/-- The items of a line have their target sizes and stand where the walk puts them. -/
structure Laid (container : Container) (filled : FilledLine) (frames : Item → Frame) : Prop where
  walked : (MainTrack.ofLine container filled.line).Walked container.axes
    (MainTrack.ofLine container filled.line).begin
    (filled.items.map fun item => (item, frames item))
  outer : ∀ item ∈ filled.items, container.axes.mainOuter (frames item) = item.target
  autos : filled.line.autoMargins =
    ((framesInFlow frames filled.items).map container.axes.autoMainMargins).sum

theorem framesInFlow_entries (frames : Item → Frame) (items : List Item) :
    MainTrack.framesInFlow (items.map fun item => (item, frames item)) =
      framesInFlow frames items := by
  simp only [MainTrack.framesInFlow, framesInFlow]
  rw [List.filter_map, List.map_map]
  rfl

variable {filled : FilledLine} {frames : Item → Frame}

/-- The margin boxes are tiles that begin at the justified offset. -/
theorem Laid.marginBoxes_eq (laid : Laid container filled frames) :
    filled.line.marginBoxes container (framesInFlow frames filled.items) =
      Span.tile (MainTrack.ofLine container filled.line).spaceAfter 0
        (MainTrack.ofLine container filled.line).spacing.lead
        (container.axes.marginSizes (filled.line.autoShare container) 0
          (framesInFlow frames filled.items)) := by
  have remainder : (MainTrack.ofLine container filled.line).begin.remainder =
      max 0 ((MainTrack.ofLine container filled.line).autoRemainder - (0 : Nat)) := by
    have nonneg := autoRemainder_nonneg container filled.line
    show (MainTrack.ofLine container filled.line).autoRemainder = _
    omega
  have boxes := MainTrack.marginBoxes_walked rfl
    (container.frame.padding.get container.axes.lowMain) (filled.line.room container)
    (autoShare_eq container filled.line) remainder laid.walked
  rw [framesInFlow_entries] at boxes
  simp only [marginBoxes]
  rw [boxes]
  congr 1
  show container.axes.distance _ _ (MainTrack.ofLine container filled.line).start = _
  rw [start_ofLine, Axes.distance]
  split <;> omega

theorem Laid.sum_outer (laid : Laid container filled frames) :
    ((framesInFlow frames filled.items).map container.axes.mainOuter).sum =
      (sizesInFlow filled.items).sum := by
  simp only [framesInFlow, sizesInFlow]
  rw [List.map_map]
  congr 1
  exact List.map_congr_left fun item member => laid.outer item (List.mem_of_mem_filter member)

theorem Laid.count (laid : Laid container filled frames) (sound : Sound filled) :
    (filled.line.marginBoxes container (framesInFlow frames filled.items)).length =
      filled.line.inFlow := by
  rw [laid.marginBoxes_eq, Span.length_tile, Axes.length_marginSizes, framesInFlow, List.length_map,
    ← List.countP_eq_length_filter, sound.inFlow]

/-- **The last margin box leaves free what justified space leaves there.** -/
theorem Laid.stop_eq (laid : Laid container filled frames) (sound : Sound filled)
    (few : filled.line.inFlow < 2147483648)
    (used : filled.line.used = (sizesInFlow filled.items).sum +
      Pixel.gapsBetween filled.line.inFlow container.mainGap)
    (fits : filled.line.used ≤ filled.line.room container) {last : Span}
    (found : (filled.line.marginBoxes container (framesInFlow frames filled.items)).getLast? =
      some last) :
    last.stop = filled.line.room container - filled.line.trailing container := by
  have count := laid.count sound
  have some : 0 < filled.line.inFlow := by
    rw [← count, List.length_pos_iff]
    rintro none
    simp [none] at found
  rw [laid.marginBoxes_eq, Span.length_tile] at count
  rw [laid.marginBoxes_eq] at found
  have free : filled.line.free container = filled.line.room container - filled.line.used := by
    simp only [Line.free]
    omega
  have spaces := MainTrack.sum_spaceAfter (spacing_nonneg container few)
  have between (k : Nat) : 0 + 1 + k = k + 1 := by omega
  have shares := sum_autoShare container filled.line
  rw [Span.stop_tile found, count, Axes.sum_marginSizes, laid.sum_outer, ← laid.autos]
  simp only [between, Nat.zero_add, shares]
  show _ + _ + ((List.range ((MainTrack.ofLine container filled.line).inFlow - 1)).map fun k =>
    (MainTrack.ofLine container filled.line).spaceAfter (k + 1)).sum = _
  rw [spaces]
  show _ + _ + (_ + ((filled.line.inFlow - 1 : Nat) : Int) * container.mainGap) = _
  rw [gapsBetween_eq few] at used
  have total := Spacing.justify_total container.style.justify (free_nonneg container filled.line)
    some few
  rw [spacing_ofLine, trailing]
  split
  · show _ + _ + ((Spacing.justify _ _ _).spread filled.line.inFlow + _) = _
    omega
  · rw [Spacing.spread_default]
    show (0 : Int) + _ + _ = _
    omega

/-- **Items that were walked at their target sizes tile their line.** -/
theorem tiled_of_laid (laid : Laid container filled frames) (sound : Sound filled)
    (gap : 0 ≤ container.mainGap) (few : filled.line.inFlow < 2147483648)
    (used : filled.line.used = (sizesInFlow filled.items).sum +
      Pixel.gapsBetween filled.line.inFlow container.mainGap)
    (fits : filled.line.used ≤ filled.line.room container) :
    Tiled container filled.line
      (filled.line.marginBoxes container (framesInFlow frames filled.items)) := by
  have count := laid.count sound
  have nonneg := spacing_nonneg container few
  have some {last : Span} (found : (filled.line.marginBoxes container
      (framesInFlow frames filled.items)).getLast? = Option.some last) : 0 < filled.line.inFlow := by
    rw [← count, List.length_pos_iff]
    rintro none
    simp [none] at found
  have stop {last : Span} (found : (filled.line.marginBoxes container
      (framesInFlow frames filled.items)).getLast? = Option.some last) :=
    laid.stop_eq sound few used fits found
  refine ⟨count, ?_, ?_, fun last found => ?_, fun flush last found => ?_,
    fun none even first last begins found => ?_⟩
  · rw [laid.marginBoxes_eq]
    intro before box after split sized
    have lead := Span.le_start_tile (MainTrack.spaceAfter_nonneg nonneg gap) split sized
    exact Int.le_trans nonneg.lead lead
  · rw [laid.marginBoxes_eq, Span.length_tile] at count
    rw [laid.marginBoxes_eq]
    apply Span.isChain_tile
    intro k before
    rw [count, Nat.zero_add] at before
    exact MainTrack.gap_le_spaceAfter nonneg before
  · have trailing := trailing_nonneg container (some found)
    rw [stop found]
    omega
  · have none : filled.line.trailing container = 0 := by
      simp only [Line.trailing]
      split
      · rename_i autos
        exact Spacing.rest_of_flush (flush.resolve_left (by omega))
      · rfl
    rw [stop found, none, Int.sub_zero]
  · have bounds := Spacing.rest_of_even (free_nonneg container filled.line) (some found) few even
    have lead : first.start = (Spacing.justify container.style.justify
        (filled.line.free container) filled.line.inFlow).lead := by
      rw [laid.marginBoxes_eq, spacing_ofLine, if_pos none] at begins
      exact Span.start_tile begins
    rw [stop found, lead, Line.trailing, if_pos none]
    omega

end Line

end FlexLayout
