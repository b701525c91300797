/-
# FlexLayout.Proofs.Restacking.Single -- the one line of a container that does not wrap

Without wrapping, the items of all children that take part stand on one line in layout
order (`Container.flow_single`).  They are what their styles and limits make them
(`Item.Of`), and their targets are what flexing the line makes of them (`Line.Flexed`).

With that, what a line leaves of a definite height is known: nothing, or only what none
of its items can take, as long as flexing uses up what it can (`Line.Exhausts`,
`Flexed.exhausted`).
-/
import FlexLayout.Proofs.Flexing.Filling
import FlexLayout.Proofs.Flexing.Yielding
import FlexLayout.Proofs.Resolved
import FlexLayout.Proofs.Restacking.Laid

namespace FlexLayout

set_option autoImplicit false

namespace Item

variable {resolve : Resolver} {container : Container} {box : Box} {item other : Item}

structure Of (resolve : Resolver) (container : Container) (box : Box) (item : Item) : Prop extends
    item.Names box where
  fit : item.Fit
  grow : item.grow = Factor.ofStyle box.style.grow
  shrink : item.shrink = Factor.ofStyle box.style.shrink
  /-- The largest main size is that of the style, with the edges of the box. -/
  maxMain : ∀ frame : Frame, frame.Edged resolve box.style container.contentWidth →
    item.maxMain = (box.style.contentSize? resolve box.style.maxHeight none frame.verticalInset).map
      (· + frame.verticalSurround)

theorem Of.of_unflexed (of : item.Of resolve container box) (same : other.unflexed = item.unflexed) :
    other.Of resolve container box := by
  have kept : item.unflexed.Of resolve container box :=
    ⟨⟨of.participates, of.outOfFlow, of.order⟩, ⟨of.fit.base, of.fit.hypothetical⟩, of.grow, of.shrink,
      of.maxMain⟩
  rw [← same] at kept
  exact ⟨⟨kept.participates, kept.outOfFlow, kept.order⟩, ⟨kept.fit.base, kept.fit.hypothetical⟩,
    kept.grow, kept.shrink, kept.maxMain⟩

theorem Of.numbered (of : item.Of resolve container box) (line : Nat) :
    ({ item with line := line } : Item).Of resolve container box :=
  ⟨⟨of.participates, of.outOfFlow, of.order⟩, ⟨of.fit.base, of.fit.hypothetical⟩, of.grow, of.shrink,
    of.maxMain⟩

theorem measure_of (column : container.axes.horizontal = false) (child index : Nat) {kid : Kid}
    (participates : kid.box.participates = true) :
    Run.Ensures (fun a => a.1.child = child ∧ a.1.Of resolve container kid.box)
      (measure resolve container child index kid) := by
  have edged := Frame.edged_withSizes resolve kid.box.style container.contentWidth kid.frame
  simp only [measure]
  generalize kid.frame.withSizes resolve kid.box.style container.contentWidth = sized at edged ⊢
  have of (laid : Frame) :
      (ofBox resolve container child index kid.box sized laid).Of resolve container kid.box := by
    refine ⟨⟨participates, rfl, rfl⟩, ⟨?_, rfl⟩, rfl, rfl, fun frame other => ?_⟩
    · simp only [ofBox]
      rw [column, if_neg Bool.false_ne_true]
      exact Pixel.inRange_saturate _
    · have same := edged.sameEdges other
      have inset : frame.verticalInset = sized.verticalInset := by
        simp only [Frame.verticalInset]
        rw [same.padding, same.border]
      have surround : frame.verticalSurround = sized.verticalSurround := by
        simp only [Frame.verticalSurround, Frame.fixedMargin]
        rw [same.margin, inset]
      rw [inset, surround]
      simp only [ofBox, Axes.mainSurround]
      rw [column]
      rfl
  rw [column, if_neg Bool.false_ne_true]
  exact Run.ensures_bind (Run.ensures_true _) fun _ _ => Run.ensures_pure ⟨rfl, of _⟩

theorem measureAll_of (column : container.axes.horizontal = false) (kids : List Kid) :
    Run.Ensures (fun a => ∀ item ∈ a.1, ∃ box, (kids.map Kid.box)[item.child]? = some box ∧
      item.Of resolve container box) (measureAll resolve container 0 0 kids) := by
  refine (measureAll_each (P := fun kid item _ => item.Of resolve container kid.box) 0 0
    fun kid _ participates child index => measure_of column child index participates).mono ?_
  intro a each item member
  obtain ⟨-, kid, -, found, -, of⟩ := each item member
  rw [Nat.sub_zero] at found
  exact ⟨kid.box, by rw [List.getElem?_map, found]; rfl, of⟩

end Item

namespace Line

variable {container : Container} {filled : FilledLine}

/-- The items have the targets that flexing the line gives them. -/
structure Flexed (container : Container) (filled : FilledLine) : Prop where
  main : filled.line.main = sumInFlow Item.hypothetical filled.items +
    ((filled.line.inFlow - 1 : Nat) : Int) * container.mainGap
  flexed : ∃ line : Line, line.main = filled.line.main ∧ line.inFlow = filled.line.inFlow ∧
    (line.flex filled.items container.mainSpace container.mainGap).2 = filled.items

theorem flexed_nil (container : Container) : Flexed container ⟨{}, []⟩ :=
  ⟨by simp [sumInFlow], {}, rfl, rfl, rfl⟩

theorem place_flexed (summed : Summed container.mainGap filled) (kids : List Kid) :
    Run.Ensures (fun a => Flexed container a.1 ∧
        List.Forall₂ (fun item after => after.unflexed = item.unflexed) filled.items a.1.items)
      (place container filled kids) := by
  simp only [place]
  generalize counted : ({ filled.line with
    autoMargins := countAutoMargins container.axes filled.items kids } : Line) = line
  have same := map_unflexed_flex line filled.items container.mainSpace container.mainGap
  have again := flex_congr line same container.mainSpace container.mainGap
  obtain ⟨used, frozen, counts⟩ :=
    counts_flex line filled.items container.mainSpace container.mainGap
  generalize line.flex filled.items container.mainSpace container.mainGap = flexed at same again counts ⊢
  have main : flexed.1.main = line.main := by rw [counts]
  have inFlow : flexed.1.inFlow = line.inFlow := by rw [counts]
  refine Run.ensures_bind (Run.ensures_true _) fun a _ => Run.ensures_pure
    ⟨⟨?_, line, main.symm, inFlow.symm, congrArg Prod.snd again⟩, same⟩
  show flexed.1.main = _ + ((flexed.1.inFlow - 1 : Nat) : Int) * _
  rw [sumInFlow_of_unflexed same fun _ => rfl, main, inFlow, ← counted, sumInFlow_eq_sum_filter]
  exact summed

/-! ## Room that is used up -/

/-- When flexing uses up the room of a line as far as the items can take it. -/
inductive Exhausts (container : Container) (filled : FilledLine) : Prop where
  /-- No item in flow can take any more. -/
  | full (all : ∀ item ∈ filled.items, item.outOfFlow = false → item.Full)
  /-- The items ask for less than the room, and no fraction of it is handed out. -/
  | grown (bounded : ∀ item ∈ filled.items, item.outOfFlow = false → item.Bounded)
      (less : sumInFlow Item.hypothetical filled.items <
        filled.line.roomFor container.mainSpace container.mainGap)
      (whole : Whole filled.items)
  /-- The items ask for all of the room, and give way no more than they have to. -/
  | yielded (bounded : ∀ item ∈ filled.items, item.outOfFlow = false → item.Bounded)
      (enough : filled.line.roomFor container.mainSpace container.mainGap ≤
        sumInFlow Item.hypothetical filled.items)
      (yields : Yields (filled.line.roomFor container.mainSpace container.mainGap) filled.items)

/-- In a definite height, a line is flexed to grow if its items ask for less than its room. -/
theorem Flexed.exists_flex {height : Int} (flexed : Flexed container filled)
    (definite : container.mainSpace = some height) (few : filled.line.inFlow < 2147483648) :
    ∃ line : Line,
      line.roomFor container.mainSpace container.mainGap =
        filled.line.roomFor container.mainSpace container.mainGap ∧
      line.grows container.mainSpace container.mainGap =
        decide (Pixel.saturate (sumInFlow Item.hypothetical filled.items) <
          line.roomFor container.mainSpace container.mainGap) ∧
      (line.flex filled.items container.mainSpace container.mainGap).2 = filled.items := by
  obtain ⟨main, line, sameMain, sameCount, same⟩ := flexed
  refine ⟨line, ?_, ?_, same⟩
  · rw [roomFor, roomFor, definite, Option.getD_some, Option.getD_some, sameCount]
  · rw [Line.grows, Pixel.sub, sameMain, sameCount, main, gapsBetween_eq few, Int.add_sub_cancel]

/-- **What is left of a height after flexing, no item can take.** -/
theorem Flexed.exhausted {height : Int} (flexed : Flexed container filled)
    (definite : container.mainSpace = some height) (nonneg : 0 ≤ height)
    (gap : 0 ≤ container.mainGap) (few : filled.line.inFlow < 2147483648)
    (items : ∀ item ∈ filled.items, item.Fit ∧ 0 ≤ item.grow.raw ∧ 0 ≤ item.shrink.raw)
    (range : height + sumInFlow Item.deficit filled.items ≤ 2147483647)
    (exhausts : Exhausts container filled) (more : 0 < leftOver container height filled) :
    ∀ item ∈ filled.items, item.outOfFlow = false → item.Full := by
  obtain ⟨line, sameRoom, grows, same⟩ := flexed.exists_flex definite few
  have between : 0 ≤ Pixel.gapsBetween filled.line.inFlow container.mainGap := by
    rw [gapsBetween_eq few]
    exact Int.mul_nonneg (Int.natCast_nonneg _) gap
  have targets := sum_sizesInFlow filled.items
  have asks : -sumInFlow Item.hypothetical filled.items ≤ sumInFlow Item.deficit filled.items :=
    neg_sumInFlow_le fun item member =>
      Int.le_trans (Int.min_le_right _ _) (items item member).1.minMain_le
  have deficits : 0 ≤ sumInFlow Item.deficit filled.items :=
    sumInFlow_nonneg fun item _ _ => Int.le_max_left _ _
  have room : line.roomFor container.mainSpace container.mainGap =
      Pixel.sub height (Pixel.gapsBetween filled.line.inFlow container.mainGap) := by
    rw [sameRoom, roomFor, definite, Option.getD_some]
  have range' : max 0 (line.roomFor container.mainSpace container.mainGap) +
      sumInFlow Item.deficit filled.items ≤ 2147483647 := by
    rw [room, Pixel.sub, Pixel.saturate]
    omega
  have flexible (bounded : ∀ item ∈ filled.items, item.outOfFlow = false → item.Bounded) :
      ∀ item ∈ filled.items, item.Flexible := fun item member =>
    ⟨(items item member).1, bounded item member, (items item member).2.1, (items item member).2.2⟩
  simp only [leftOver] at more
  cases exhausts with
  | full all => exact all
  | grown bounded less whole =>
      rw [← sameRoom] at less
      rw [← same] at whole ⊢
      refine (filled_flex (grows.trans (decide_eq_true ?_)) (flexible bounded) range' less
        whole).resolve_left ?_
      · rw [room, Pixel.sub] at less ⊢
        simp only [Pixel.saturate] at less ⊢
        omega
      · intro fills
        rw [same, room, Pixel.sub, Pixel.saturate] at fills
        omega
  | yielded bounded enough yields =>
      rw [← sameRoom] at enough yields
      have filled := yielded_flex (grows.trans (decide_eq_false ?_)) (flexible bounded) range' enough
        yields
      · rw [same, room, Pixel.sub, Pixel.saturate] at filled
        omega
      · rw [room, Pixel.sub] at enough ⊢
        simp only [Pixel.saturate] at enough ⊢
        omega

/-- Sizes of a flexed line that add up in every order do so in that of counting. -/
theorem Flexed.running_of_summable (flexed : Flexed container filled)
    (summable : Pixel.Summable (Pixel.gapsBetween filled.line.inFlow container.mainGap ::
      sizesInFlow filled.items)) :
    Pixel.Running (filled.line.countingOrder filled.items container.mainSpace container.mainGap ++
      [Pixel.gapsBetween filled.line.inFlow container.mainGap]) := by
  obtain ⟨-, line, main, inFlow, same⟩ := flexed
  have itself : List.Forall₂ (fun item other => other.unflexed = item.unflexed)
      filled.items filled.items := List.forall₂_same.2 fun _ _ => rfl
  rw [← countingOrder_congr main inFlow itself, ← inFlow]
  apply Line.running_of_summable
  rw [same, inFlow]
  exact summable

/-- Sizes add up in the range of pixels as long as they leave something of the height. -/
theorem Flexed.running {height : Int} (flexed : Flexed container filled)
    (gap : 0 ≤ container.mainGap) (few : filled.line.inFlow < 2147483648)
    (items : ∀ item ∈ filled.items, item.Fit)
    (range : height + sumInFlow Item.deficit filled.items ≤ 2147483647)
    (nonneg : 0 ≤ height) (more : 0 < leftOver container height filled) :
    Pixel.Running (filled.line.countingOrder filled.items container.mainSpace container.mainGap ++
      [Pixel.gapsBetween filled.line.inFlow container.mainGap]) := by
  apply flexed.running_of_summable
  obtain ⟨-, line, -, -, same⟩ := flexed
  have between : 0 ≤ Pixel.gapsBetween filled.line.inFlow container.mainGap := by
    rw [gapsBetween_eq few]
    exact Int.mul_nonneg (Int.natCast_nonneg _) gap
  have least : ∀ item ∈ filled.items, item.minMain ≤ item.target := by
    have held := minMain_le_flex line container.mainSpace container.mainGap fun item member =>
      (items item member).limited
    rwa [same] at held
  have lacks : sumInFlow (fun item => max 0 (-item.target)) filled.items ≤
      sumInFlow Item.deficit filled.items := by
    refine sumInFlow_mono fun item member _ => ?_
    have := least item member
    simp only [Item.deficit]
    omega
  have takes : sumInFlow (fun item => max 0 item.target) filled.items -
      sumInFlow (fun item => max 0 (-item.target)) filled.items = sumInFlow Item.target filled.items := by
    rw [← sumInFlow_sub]
    congr 1
    funext item
    omega
  have cuts : sumInFlow (fun item => min 0 item.target) filled.items =
      -sumInFlow (fun item => max 0 (-item.target)) filled.items := by
    rw [← sumInFlow_neg]
    congr 1
    funext item
    omega
  simp only [leftOver, sum_sizesInFlow] at more
  constructor
  · rw [List.map_cons, List.sum_cons, sizesInFlow, List.map_map]
    have sum := sumInFlow_eq_sum_filter (fun item => max 0 item.target) filled.items
    show _ + ((filled.items.filter fun item => !item.outOfFlow).map fun item => max 0 item.target).sum ≤ _
    omega
  · rw [List.map_cons, List.sum_cons, sizesInFlow, List.map_map]
    have sum := sumInFlow_eq_sum_filter (fun item => min 0 item.target) filled.items
    show _ ≤ _ + ((filled.items.filter fun item => !item.outOfFlow).map fun item => min 0 item.target).sum
    omega

end Line

/-! ## The line of a container that does not wrap -/

namespace Container

/-- The one line of a container, or a line without items if it has none. -/
structure Single (resolve : Resolver) (boxes : List Box) (flow : Flow) (filled : FilledLine) :
    Prop where
  lines : flow.lines = [filled] ∨ flow.lines = [] ∧ filled = ⟨{}, []⟩
  flexed : Line.Flexed flow.container filled
  lists : Line.Lists boxes filled.items
  of : ∀ item ∈ filled.items, ∃ box, boxes[item.child]? = some box ∧
    item.Of resolve flow.container box

namespace Single

variable {resolve : Resolver} {boxes : List Box} {flow : Flow} {filled : FilledLine}

theorem of_all (single : Single resolve boxes flow filled) {P : FilledLine → Prop}
    (none : P ⟨{}, []⟩) (all : ∀ filled ∈ flow.lines, P filled) : P filled := by
  rcases single.lines with one | ⟨-, rfl⟩
  · exact all filled (one ▸ List.mem_singleton_self filled)
  · exact none

theorem to_all (single : Single resolve boxes flow filled) {P : FilledLine → Prop} (holds : P filled) :
    ∀ filled ∈ flow.lines, P filled := by
  intro other member
  rcases single.lines with one | ⟨none, -⟩
  · rw [one, List.mem_singleton] at member
    exact member ▸ holds
  · simp [none] at member

end Single

theorem lists_sorted {resolve : Resolver} {container : Container} {kids : List Kid} {items : List Item}
    (numbered : Item.Numbered 0 0 kids items)
    (of : ∀ item ∈ items, ∃ box, (kids.map Kid.box)[item.child]? = some box ∧
      item.Of resolve container box)
    (all : ∀ (i : Nat) (kid : Kid), kids[i]? = some kid → kid.box.participates = true →
      ∃ item ∈ items, item.child = 0 + i) :
    Line.Lists (kids.map Kid.box) (Item.sortByOrder items) where
  ordered := by
    -- Items are numbered as their children are.
    have alike : ∀ a ∈ items, ∀ b ∈ items, a.index ≤ b.index → a.child ≤ b.child := by
      refine fun a first b second => List.Pairwise.forall_of_forall_of_flip
        (R := fun a b : Item => a.index ≤ b.index → a.child ≤ b.child) ?_ ?_ ?_ first second
      · exact fun _ _ _ => Nat.le_refl _
      · exact numbered.ordered.imp fun lt _ => Nat.le_of_lt lt.1
      · exact numbered.ordered.imp fun lt le => absurd lt.2 (Nat.not_lt_of_le le)
    obtain ⟨nodup, sorted⟩ := sorted_facts numbered
    refine ((Item.sortByOrder_sorted items).and (List.pairwise_map.1 nodup)).imp_of_mem ?_
    rintro a b first second ⟨precedes, apart⟩
    have order := alike a (sorted a first).1 b (sorted b second).1
    simp only [Item.precedes, Bool.or_eq_true, Bool.and_eq_true, decide_eq_true_eq, beq_iff_eq]
      at precedes
    simp only [Item.Before]
    omega
  names item member := by
    obtain ⟨box, found, of⟩ := of item ((Item.sortByOrder_perm items).mem_iff.1 member)
    exact ⟨box, found, of.toNames⟩
  all i box found participates := by
    rw [List.getElem?_map, Option.map_eq_some_iff] at found
    obtain ⟨kid, found, rfl⟩ := found
    obtain ⟨item, member, at_⟩ := all i kid found participates
    exact ⟨item, (Item.sortByOrder_perm items).mem_iff.2 member, at_.trans (Nat.zero_add i)⟩

/-- **Without wrapping, all items stand on one line in layout order.** -/
theorem flow_single {resolve : Resolver} {style : Style} {frame : Frame} {kids : List Kid}
    {available : Int} (vertical : style.direction.axes.horizontal = false)
    (nowrap : style.wrap = .nowrap) :
    Run.Ensures (fun flow => flow.container = prepare resolve style frame available ∧
        ∃ filled, Single resolve (kids.map Kid.box) flow filled)
      (flow resolve style frame kids available) := by
  simp only [flow]
  have column : (prepare resolve style frame available).axes.horizontal = false := vertical
  have unbroken : Line.Breaking.Unbroken (prepare resolve style frame available).breaking := by
    left
    simp only [breaking]
    show (style.wrap != .nowrap) = false
    rw [nowrap]
    rfl
  generalize prepare resolve style frame available = container at column unbroken ⊢
  refine Run.ensures_bind (((Item.measureAll_numbered 0 0 kids).and
    (Item.measureAll_of column kids)).and
    (Item.measureAll_all 0 0 kids)) ?_
  rintro ⟨items, sized⟩ ⟨⟨⟨numbered, -⟩, of⟩, all⟩
  dsimp only at numbered of all ⊢
  have lists := lists_sorted numbered of all
  have of' : ∀ item ∈ Item.sortByOrder items, ∃ box, (kids.map Kid.box)[item.child]? = some box ∧
      item.Of resolve container box :=
    fun item member => of item ((Item.sortByOrder_perm items).mem_iff.1 member)
  generalize Item.sortByOrder items = sorted at lists of'
  have single := Line.length_breakAll_of_unbroken unbroken sorted
  have whole := Line.items_flatMap_breakAll container.breaking sorted
  have summed := Line.main_breakAll container.breaking sorted
  simp only [arrange]
  generalize Line.breakAll container.breaking sorted = lines at single whole summed ⊢
  -- All items are on one line, or there are none and no line.
  cases lines with
  | nil =>
      rw [List.flatMap_nil] at whole
      subst whole
      exact Run.ensures_pure ⟨rfl, _, .inr ⟨rfl, rfl⟩, Line.flexed_nil _, lists, of'⟩
  | cons filled rest =>
      have none : rest = [] := by
        rw [List.length_cons] at single
        exact List.length_eq_zero_iff.1 (by omega)
      subst none
      rw [List.flatMap_cons, List.flatMap_nil, List.append_nil] at whole
      subst whole
      rw [Line.placeAll]
      have summed' : Line.Summed container.mainGap
          ⟨filled.line, filled.items.map fun item => { item with line := 0 }⟩ := by
        have summed := summed filled List.mem_cons_self
        simp only [Line.Summed, Line.hypotheticals, List.filter_map, List.map_map] at summed ⊢
        exact summed
      simp only [Line.placeAll, pure_bind, bind_assoc]
      refine Run.ensures_bind (Line.place_flexed summed' sized) ?_
      rintro ⟨placed, kids⟩ ⟨flexed, same⟩
      have same := List.forall₂_map_left_iff.1 same
      refine Run.ensures_pure ⟨rfl, placed, .inl rfl, flexed, lists.congr (same.imp ?_), ?_⟩
      · intro item other same
        exact ⟨(congrArg Item.child same :), (congrArg Item.order same :),
          (congrArg Item.outOfFlow same :)⟩
      · intro other member
        obtain ⟨item, among, same⟩ := exists_of_mem_right same member
        obtain ⟨box, found, of⟩ := of' item among
        have child : other.child = item.child := (congrArg Item.child same :)
        exact ⟨box, child ▸ found, (of.numbered 0).of_unflexed same⟩

end Container

end FlexLayout
