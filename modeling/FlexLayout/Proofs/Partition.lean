/-
# FlexLayout.Proofs.Partition -- lines are a partition of the items, and add them up

The lines that a container arranges its items in are the lines that the items are broken
into (`arrange_partitions`).  Their ranges follow each other and cover all positions, and
the items of each are those of its range, with its number.  Every measure of a line is
what its items add up to (`Collected`), and what the container adds up over the lines is
the sum, or the largest, of their sizes (`Extends`).

Margins are not measured with the items: a line counts those that are `auto` when it is
placed, as the earlier lines leave the children.  Since lines do not depend on the items
behind them, that is what arranging only the items before it leaves
(`placeAll_before`).
-/
import FlexLayout.Layout
import FlexLayout.Proofs.Flexing.Counting
import FlexLayout.Proofs.Stages.Close
import FlexLayout.Proofs.Stages.Lines
import FlexLayout.Proofs.Stages.Ranges
import FlexLayout.Proofs.Tiling.Placing

namespace FlexLayout

set_option autoImplicit false

namespace Line

variable {container : Container} {items items' : List Item}
  {filled placed : FilledLine}

/-! ## One line -/

/-- A line of a number adds up its items, which are those of its range.  What it uses is
what they take and the gaps between them, as long as adding that up in the order in which
they are frozen stays within the range of pixels. -/
structure Collected (container : Container) (items : List Item) (k : Nat) (filled : FilledLine) :
    Prop where
  some : 0 < filled.line.count
  items : List.Forall₂ (fun item after => after.unflexed = { item.unflexed with line := k })
    ((items.drop filled.line.first).take filled.line.count) filled.items
  inFlow : filled.line.inFlow = filled.items.countP fun item => !item.outOfFlow
  main : filled.line.main = sumInFlow Item.hypothetical filled.items +
    Pixel.gapsBetween filled.line.inFlow container.mainGap
  used : Pixel.Running (filled.line.countingOrder filled.items container.mainSpace
      container.mainGap ++ [Pixel.gapsBetween filled.line.inFlow container.mainGap]) →
    filled.line.used = sumInFlow Item.target filled.items +
      Pixel.gapsBetween filled.line.inFlow container.mainGap

theorem line_flexedAs (container : Container) (index autos : Nat) (cross : Int)
    (filled : FilledLine) :
    ∃ used frozen, (flexedAs container index autos cross filled).line =
      { filled.line with autoMargins := autos, cross := cross, used := used, frozen := frozen } := by
  obtain ⟨used, frozen, same⟩ := counts_flex { filled.line with autoMargins := autos }
    (filled.items.map fun item => { item with line := index }) container.mainSpace container.mainGap
  refine ⟨used, frozen, ?_⟩
  show { (Line.flex _ _ _ _).1 with cross := cross } = _
  rw [same]

theorem items_flexedAs (container : Container) (index autos : Nat) (cross : Int)
    (filled : FilledLine) :
    List.Forall₂ (fun item after => after.unflexed = { item.unflexed with line := index })
      filled.items (flexedAs container index autos cross filled).items := by
  have same := map_unflexed_flex { filled.line with autoMargins := autos }
    (filled.items.map fun item => { item with line := index }) container.mainSpace container.mainGap
  exact (List.forall₂_map_left_iff.1 same).imp fun _ _ same => same

theorem countP_inFlow {index : Nat}
    (same : List.Forall₂ (fun item after => after.unflexed = { item.unflexed with line := index })
      items items') :
    (items'.countP fun item => !item.outOfFlow) = items.countP fun item => !item.outOfFlow := by
  induction same with
  | nil => rfl
  | @cons item after _ _ first _ ih =>
      have flow : after.outOfFlow = item.outOfFlow := (congrArg Item.outOfFlow first :)
      rw [List.countP_cons, List.countP_cons, ih, flow]

/-- **A line that items were broken into and that is flexed adds them up.** -/
theorem collected_flexedAs (few : items.length < 2147483648)
    (broken : filled ∈ breakAll container.breaking items) (k autos : Nat) (cross : Int) :
    Collected container items k (flexedAs container k autos cross filled) := by
  obtain ⟨used, frozen, same⟩ := line_flexedAs container k autos cross filled
  have slice := slice_breakAll _ _ filled broken
  have sound := sound_breakAll _ _ filled broken
  have summed := main_breakAll _ _ filled broken
  have numbered := items_flexedAs container k autos cross filled
  have flow {item after : Item} (same : after.unflexed = { item.unflexed with line := k }) :
      after.outOfFlow = item.outOfFlow := (congrArg Item.outOfFlow same :)
  have short : filled.line.inFlow < 2147483648 := by
    have counted := List.countP_le_length (p := fun item => !item.outOfFlow) (l := filled.items)
    have length := congrArg List.length slice.items
    rw [List.length_take, List.length_drop] at length
    rw [sound.inFlow]
    omega
  refine ⟨?_, ?_, ?_, ?_, ?_⟩
  · rw [same]
    exact slice.some
  · rw [same]
    dsimp only
    rw [← slice.items]
    exact numbered
  · rw [same, countP_inFlow numbered]
    exact sound.inFlow
  · have sizes : sumInFlow Item.hypothetical filled.items =
        sumInFlow Item.hypothetical (flexedAs container k autos cross filled).items :=
      sumInFlow_congr numbered (fun _ _ same => flow same) fun item after same _ =>
        (congrArg Item.hypothetical same :).symm
    rw [same]
    dsimp only
    rw [← sizes, gapsBetween_eq short, sumInFlow_eq_sum_filter]
    exact summed
  · let counted : Line := { filled.line with autoMargins := autos }
    have main : (flexedAs container k autos cross filled).line.main = counted.main := by rw [same]
    have inFlow : (flexedAs container k autos cross filled).line.inFlow = counted.inFlow := by
      rw [same]
    exact used_flex_again main inFlow _ _ _

/-! ## Margins -/

/-- A line counts the `auto` margins of its items as it finds the children. -/
theorem place_autoMargins (container : Container) (filled : FilledLine) (kids : List Kid) :
    Run.Ensures (fun a => a.1.line.autoMargins = countAutoMargins container.axes a.1.items kids)
      (place container filled kids) := by
  simp only [place]
  have autos := countAutoMargins_congr container.axes kids
    ((map_unflexed_flex
      { filled.line with autoMargins := countAutoMargins container.axes filled.items kids }
      filled.items container.mainSpace container.mainGap).imp fun item after same =>
        ⟨(congrArg Item.child same :), (congrArg Item.outOfFlow same :)⟩)
  obtain ⟨used, frozen, counts⟩ := counts_flex
    { filled.line with autoMargins := countAutoMargins container.axes filled.items kids }
    filled.items container.mainSpace container.mainGap
  refine Run.ensures_bind (Run.ensures_true _) fun sized _ => Run.ensures_pure ?_
  rw [autos]
  dsimp only [raiseCross]
  rw [counts]

/-- **Lines are placed one after the other.**  A line finds the children as placing the
lines before it leaves them. -/
theorem placeAll_before {front back : List FilledLine} {index : Nat} {kids after : List Kid}
    {log calls : CallLog} {lines : List FilledLine}
    (done : (placeAll container index (front ++ filled :: back) kids).outcome log =
      (.ok (lines, after), calls)) :
    ∃ placed seen mid, lines[front.length]? = some placed ∧
      (placeAll container index front kids).outcome log =
        (.ok (lines.take front.length, seen), mid) ∧
      placed.line.autoMargins = countAutoMargins container.axes placed.items seen := by
  induction front generalizing index kids log lines after with
  | nil =>
      rw [List.nil_append, placeAll] at done
      obtain ⟨⟨placed, kids'⟩, mid, first, rest⟩ := Run.outcome_bind_eq_ok done
      obtain ⟨⟨later, kids''⟩, mid', _, last⟩ := Run.outcome_bind_eq_ok rest
      simp only [Run.outcome_pure, Prod.mk.injEq, Except.ok.injEq] at last
      obtain ⟨⟨rfl, rfl⟩, rfl⟩ := last
      exact ⟨placed, kids, log, rfl, rfl, place_autoMargins container _ kids log mid _ first⟩
  | cons earlier front ih =>
      rw [List.cons_append, placeAll] at done
      obtain ⟨⟨placed, kids'⟩, mid, first, rest⟩ := Run.outcome_bind_eq_ok done
      obtain ⟨⟨later, kids''⟩, mid', second, last⟩ := Run.outcome_bind_eq_ok rest
      simp only [Run.outcome_pure, Prod.mk.injEq, Except.ok.injEq] at last
      obtain ⟨⟨rfl, rfl⟩, rfl⟩ := last
      obtain ⟨found, seen, stop, at_, before, autos⟩ := ih second
      refine ⟨found, seen, stop, at_, ?_, autos⟩
      rw [placeAll, Run.outcome_bind_ok first, Run.outcome_bind_ok before]
      rfl

/-! ## All lines -/

/-- Every line that is made comes from the line of its number. -/
theorem FlexedAll.exists_broken {index k : Nat} {lines made : List FilledLine}
    (flexed : FlexedAll container index lines made) (found : made[k]? = some filled) :
    ∃ broken, lines[k]? = some broken ∧
      filled = flexedAs container (index + k) filled.line.autoMargins filled.line.cross broken := by
  obtain ⟨bound, _⟩ := List.getElem?_eq_some_iff.1 found
  have among := List.getElem?_eq_getElem (flexed.length ▸ bound)
  exact ⟨_, among, flexed.each k _ filled among found⟩

theorem FlexedAll.extents {index : Nat} {lines made : List FilledLine}
    (flexed : FlexedAll container index lines made) :
    (made.map fun filled => (filled.line.first, filled.line.count)) =
      lines.map fun filled => (filled.line.first, filled.line.count) := by
  refine List.ext_getElem? fun k => ?_
  rw [List.getElem?_map, List.getElem?_map]
  cases found : made[k]? with
  | none =>
      have bound := List.getElem?_eq_none_iff.1 found
      rw [List.getElem?_eq_none_iff.2 (flexed.length ▸ bound)]
  | some filled =>
      obtain ⟨broken, among, same⟩ := flexed.exists_broken found
      obtain ⟨used, frozen, kept⟩ := line_flexedAs container (index + k) filled.line.autoMargins
        filled.line.cross broken
      rw [← same] at kept
      rw [among, Option.map_some, Option.map_some, kept]

/-- Ranges follow each other and have all positions as soon as they are those that items
were broken into. -/
theorem ranges_of_extents {lines : List FilledLine} {rule : Breaking}
    (same : (lines.map fun filled => (filled.line.first, filled.line.count)) =
      (breakAll rule items).map fun filled => (filled.line.first, filled.line.count)) :
    (lines.flatMap fun filled => filled.line.range) = List.range items.length ∧
      lines.IsChain fun filled next => next.line.first = filled.line.stop := by
  have flat (lines : List FilledLine) : (lines.flatMap fun filled => filled.line.range) =
      (lines.map fun filled => (filled.line.first, filled.line.count)).flatMap fun extent =>
        List.range' extent.1 extent.2 := by
    rw [List.flatMap_map]
    rfl
  have chained (lines : List FilledLine) :
      (lines.IsChain fun filled next => next.line.first = filled.line.stop) ↔
        (lines.map fun filled => (filled.line.first, filled.line.count)).IsChain
          fun extent next => next.1 = extent.1 + extent.2 := by
    rw [List.isChain_map]
    rfl
  rw [flat, chained, same, ← flat, ← chained]
  exact ⟨ranges_breakAll rule items, (later_breakAll rule items).1⟩

theorem foldl_max_main_cases (lines : List FilledLine) (size : Int) :
    lines.foldl (fun size filled => max size filled.line.main) size = size ∨
      ∃ filled ∈ lines,
        lines.foldl (fun size filled => max size filled.line.main) size = filled.line.main := by
  induction lines generalizing size with
  | nil => exact .inl rfl
  | cons filled rest ih =>
      rw [List.foldl_cons]
      rcases ih (max size filled.line.main) with same | ⟨other, member, same⟩
      · rcases Int.le_total size filled.line.main with le | ge
        · rw [Int.max_eq_right le] at same ⊢
          exact .inr ⟨filled, List.mem_cons_self, same⟩
        · rw [Int.max_eq_left ge] at same ⊢
          exact .inl same
      · exact .inr ⟨other, List.mem_cons_of_mem filled member, same⟩

theorem mainExtent_cases (lines : List FilledLine) :
    mainExtent lines = 0 ∨ ∃ filled ∈ lines, mainExtent lines = filled.line.main :=
  foldl_max_main_cases lines 0

end Line

namespace Flow

/-- The sizes of a container's lines are what its own is made of: across, their sum with
the gaps between them, and along, the largest of them. -/
structure Extends (flow : Flow) : Prop where
  cross : flow.crossSize = (flow.lines.map fun filled => filled.line.cross).sum +
    Pixel.gapsBetween flow.lines.length flow.container.crossGap
  nonneg : 0 ≤ flow.mainSize
  covers : ∀ filled ∈ flow.lines, filled.line.main ≤ flow.mainSize
  attained : flow.mainSize = 0 ∨ ∃ filled ∈ flow.lines, flow.mainSize = filled.line.main

theorem extends_self (flow : Flow) : flow.Extends where
  cross := rfl
  nonneg := Line.mainExtent_nonneg flow.lines
  covers _ member := Line.le_mainExtent member
  attained := Line.mainExtent_cases flow.lines

end Flow

namespace Container

open Line

/-- **Arranging items partitions them into lines and adds them up.**  The lines come one
after the other and have all positions; each adds up its items, and the `auto` margins
that it finds once the items before it are arranged; without wrapping, or without a size
to wrap at, there is one line at most. -/
theorem arrange_partitions {container : Container} {items : List Item} {kids after : List Kid}
    {log calls : CallLog} {lines : List FilledLine} (few : items.length < 2147483648)
    (done : (container.arrange 0 items kids).outcome log = (.ok (lines, after), calls)) :
    (lines.flatMap fun filled => filled.line.range) = List.range items.length ∧
    (lines.IsChain fun filled next => next.line.first = filled.line.stop) ∧
    (∀ (k : Nat) (filled : FilledLine), lines[k]? = some filled →
      Collected container items k filled ∧
      ∃ seen mid, (container.arrange 0 (items.take filled.line.first) kids).outcome log =
          (.ok (lines.take k, seen), mid) ∧
        filled.line.autoMargins = countAutoMargins container.axes filled.items seen) ∧
    (Flow.mk container lines after).Extends ∧
    (container.style.wrap = .nowrap ∨ container.mainSpace = none → lines.length ≤ 1) := by
  have flexed := placeAll_flexedAs container 0 _ kids log calls _ done
  obtain ⟨covered, chained⟩ := ranges_of_extents flexed.extents
  refine ⟨covered, chained, fun k filled found => ?_, Flow.extends_self _, fun unbroken => ?_⟩
  · obtain ⟨broken, among, same⟩ := flexed.exists_broken found
    rw [Nat.zero_add] at same
    have collected := collected_flexedAs few (List.mem_of_getElem? among) k
      filled.line.autoMargins filled.line.cross
    rw [← same] at collected
    refine ⟨collected, ?_⟩
    obtain ⟨used, frozen, kept⟩ := line_flexedAs container k filled.line.autoMargins
      filled.line.cross broken
    rw [← same] at kept
    -- Breaking the items before this line gives the lines before it.
    obtain ⟨bound, _⟩ := List.getElem?_eq_some_iff.1 among
    have split : breakAll container.breaking items = (breakAll container.breaking items).take k ++
        broken :: (breakAll container.breaking items).drop (k + 1) := by
      obtain ⟨bound, rfl⟩ := List.getElem?_eq_some_iff.1 among
      rw [← List.drop_eq_getElem_cons bound, List.take_append_drop]
    have earlier := breakAll_take split
    rw [arrange, split] at done
    obtain ⟨placed, seen, mid, at_, before, autos⟩ := placeAll_before done
    rw [List.length_take_of_le (Nat.le_of_lt bound)] at at_ before
    obtain rfl := Option.some.inj (at_.symm.trans found)
    refine ⟨seen, mid, ?_, autos⟩
    rw [arrange, kept]
    dsimp only
    rw [earlier]
    exact before
  · rw [flexed.length]
    refine length_breakAll_of_unbroken ?_ items
    rcases unbroken with nowrap | unbounded
    · exact .inl (by simp [breaking, nowrap])
    · exact .inr unbounded

/-- Among the items are one out of flow, one of size zero and one that is too large.  The
`auto` margins are found on the last line. -/
theorem arrange_partitions_wrapped :
    let container := prepare ({} : Host).resolve { wrap := .wrap, columnGap := some (.px 5) } {} 100
    let items : List Item :=
      [{ child := 0, grow := 1, base := 30, hypothetical := 30 },
        { child := 1, outOfFlow := true, hypothetical := 40 }, { child := 2 },
        { child := 3, base := 120, hypothetical := 120, minMain := 120 },
        { child := 4, base := 20, hypothetical := 20 }]
    let auto : Frame := { margin := .all none }
    let kids := Kid.ofBoxes ({} : Host).environment [{}, {}, {}, {}, {}]
      [⟨{}, []⟩, ⟨auto, []⟩, ⟨{}, []⟩, ⟨{}, []⟩, ⟨auto, []⟩]
    items.length < 2147483648 ∧
    ∃ lines after calls, (container.arrange 0 items kids).outcome #[] = (.ok (lines, after), calls) ∧
      lines.map (fun filled => (filled.line.range, filled.line.autoMargins)) =
        [([0, 1, 2], 0), ([3], 0), ([4], 2)] ∧
      (∀ filled ∈ lines, filled.line.used = sumInFlow Item.target filled.items +
        Pixel.gapsBetween filled.line.inFlow container.mainGap) ∧
      ((lines.flatMap fun filled => filled.line.range) = List.range items.length) ∧
      (Flow.mk container lines after).Extends := by
  intro container items auto kids
  have few : items.length < 2147483648 := by decide
  have ran : Run.Succeeds (fun made =>
      made.1.map (fun filled => (filled.line.range, filled.line.autoMargins)) =
        [([0, 1, 2], 0), ([3], 0), ([4], 2)] ∧
      ∀ filled ∈ made.1, Pixel.Running (filled.line.countingOrder filled.items container.mainSpace
        container.mainGap ++ [Pixel.gapsBetween filled.line.inFlow container.mainGap]))
      (container.arrange 0 items kids) #[] := by
    decide +kernel
  obtain ⟨⟨lines, after⟩, calls, done, measures, running⟩ := ran
  obtain ⟨covered, -, each, extended, -⟩ := arrange_partitions few done
  refine ⟨few, lines, after, calls, done, measures, fun filled member => ?_, covered, extended⟩
  obtain ⟨k, found⟩ := List.getElem?_of_mem member
  exact (each k filled found).1.used (running filled member)

end Container

end FlexLayout
