/-
# FlexLayout.Proofs.Tiling.Placing -- every line of plain children is walked

Each stage works on the children of its own items and leaves the others alone
(`giveMainSizes_each`, `moveMain_of_notMem`).  So what placing a line makes of its items
(`place_each`) is not changed by placing further lines (`placeAll_each`).  Plain children
have the target sizes of their items then, and stand where the walk puts them
(`place_placed`).
-/
import FlexLayout.Proofs.Flexing.Counting
import FlexLayout.Proofs.Stages.Flow
import FlexLayout.Proofs.Tiling.Plain
import FlexLayout.Proofs.Tiling.Tiled

namespace FlexLayout

set_option autoImplicit false

namespace Item

variable {axes : Axes} {item : Item} {items : List Item} {kids kids' : List Kid}

def frameIn (fragments : List Fragment) (item : Item) : Frame :=
  (fragments[item.child]?.getD {}).frame

theorem frameIn_of_getElem? {kid : Kid} (found : kids[item.child]? = some kid) :
    item.frameIn (kids.map Kid.fragment) = kid.frame := by
  rw [frameIn, List.getElem?_map, found]
  rfl

theorem frameIn_congr (same : kids'[item.child]? = kids[item.child]?) :
    item.frameIn (kids'.map Kid.fragment) = item.frameIn (kids.map Kid.fragment) := by
  rw [frameIn, frameIn, List.getElem?_map, List.getElem?_map, same]

def With (P : Item → Kid → Prop) (kids : List Kid) (item : Item) : Prop :=
  ∃ kid, kids[item.child]? = some kid ∧ P item kid

def Becomes (R : Item → Kid → Kid → Prop) (kids after : List Kid) (item : Item) : Prop :=
  ∃ kid last, kids[item.child]? = some kid ∧ after[item.child]? = some last ∧ R item kid last

theorem With.congr {P : Item → Kid → Prop} (holds : item.With P kids)
    (same : kids'[item.child]? = kids[item.child]?) : item.With P kids' := by
  obtain ⟨kid, found, property⟩ := holds
  exact ⟨kid, same.trans found, property⟩

theorem With.set {P : Item → Kid → Prop} (holds : item.With P kids) {position : Nat}
    (apart : item.child ≠ position) (kid : Kid) : item.With P (kids.set position kid) :=
  holds.congr (List.getElem?_set_ne apart.symm)

theorem Becomes.of_set {R : Item → Kid → Kid → Prop} {after : List Kid} {position : Nat} {kid : Kid}
    (becomes : item.Becomes R (kids.set position kid) after) (apart : item.child ≠ position) :
    item.Becomes R kids after := by
  obtain ⟨before, last, found, found', holds⟩ := becomes
  exact ⟨before, last, (List.getElem?_set_ne apart.symm).symm.trans found, found', holds⟩

theorem With.seated {P : Item → Kid → Prop} (holds : item.With P kids) : item.Seated kids := by
  obtain ⟨kid, found, -⟩ := holds
  exact (List.getElem?_eq_some_iff.1 found).1

/-- **Items of a line are given their main sizes one by one**, and the other children
are left alone. -/
theorem giveMainSizes_each {R : Item → Kid → Kid → Prop} (nodup : (items.map Item.child).Nodup)
    (each : ∀ item ∈ items, item.With
      (fun item kid => Run.Ensures (R item kid) (giveMainSize axes item kid)) kids) :
    Run.Ensures (fun a =>
        a.1 = items.map (fun item => (item, item.frameIn (a.2.map Kid.fragment))) ∧
        (∀ item ∈ items, item.Becomes R kids a.2) ∧
        (∀ i, i ∉ items.map Item.child → a.2[i]? = kids[i]?))
      (giveMainSizes axes items kids) := by
  induction items generalizing kids with
  | nil =>
      exact Run.ensures_pure ⟨rfl, fun _ member => absurd member List.not_mem_nil, fun _ _ => rfl⟩
  | cons item rest ih =>
      obtain ⟨fresh, nodup⟩ := List.nodup_cons.1 nodup
      obtain ⟨⟨kid, found, ensures⟩, eachs⟩ := List.forall_mem_cons.1 each
      have inside : item.child < kids.length := (List.getElem?_eq_some_iff.1 found).1
      have apart {other : Item} (member : other ∈ rest) : other.child ≠ item.child := fun same =>
        fresh (List.mem_map.2 ⟨other, member, same⟩)
      rw [giveMainSizes_cons found]
      refine Run.ensures_bind ensures fun after became => ?_
      refine Run.ensures_bind
        (ih nodup fun other member => (eachs other member).set (apart member) after)
        fun b ⟨listed, becomes, rests⟩ => Run.ensures_pure ⟨?_, ?_, fun i out => ?_⟩
      · rw [List.map_cons, frameIn_of_getElem? (rests _ fresh ▸ List.getElem?_set_self inside), ← listed]
      · refine List.forall_mem_cons.2 ⟨⟨kid, after, found, ?_, became⟩, fun other member => ?_⟩
        · rw [rests _ fresh, List.getElem?_set_self inside]
        · exact (becomes other member).of_set (apart member)
      · rw [List.map_cons, List.mem_cons, not_or] at out
        rw [rests i out.2, List.getElem?_set_ne (Ne.symm out.1)]

/-- A child that can be given the target of its item: it is plain, with edges no larger. -/
def Targeted (axes : Axes) (item : Item) (kid : Kid) : Prop :=
  kid.Plain ∧ axes.mainSurround kid.frame ≤ item.target

/-- A child that was given the target of its item, with the margins it had. -/
def Given (axes : Axes) (item : Item) (kid laid : Kid) : Prop :=
  item.Fitted axes laid ∧ laid.frame.margin = kid.frame.margin

end Item

/-! ## Moving -/

variable {axes : Axes} {kids : List Kid} {moves : List (Item × Int)}

theorem moveMain_of_notMem {i : Nat} (out : i ∉ moves.map fun move => move.1.child) :
    (moveMain axes kids moves)[i]? = kids[i]? := by
  induction moves generalizing kids with
  | nil => rfl
  | cons move rest ih =>
      rw [List.map_cons, List.mem_cons, not_or] at out
      rw [moveMain_cons, ih out.2, List.getElem?_modify_ne _ _ (Ne.symm out.1)]

theorem moveMain_of_mem (nodup : (moves.map fun move => move.1.child).Nodup) {move : Item × Int}
    (member : move ∈ moves) {kid : Kid} (found : kids[move.1.child]? = some kid) :
    (moveMain axes kids moves)[move.1.child]? =
      some (kid.withFrame (axes.moveMain kid.frame move.2)) := by
  induction moves generalizing kids with
  | nil => exact absurd member List.not_mem_nil
  | cons first rest ih =>
      obtain ⟨fresh, nodup⟩ := List.nodup_cons.1 nodup
      rw [moveMain_cons]
      rcases List.mem_cons.1 member with rfl | later
      · rw [moveMain_of_notMem fresh, List.getElem?_modify_eq, found]
        rfl
      · apply ih nodup later
        have apart : first.1.child ≠ move.1.child := fun same =>
          fresh (List.mem_map.2 ⟨move, later, same.symm⟩)
        rw [List.getElem?_modify_ne _ _ apart, found]

theorem Axes.mainCoordinate_moveMain (axes : Axes) (frame : Frame) (coordinate : Int) :
    axes.mainCoordinate (axes.moveMain frame coordinate) = coordinate := by
  simp only [Axes.mainCoordinate, Axes.moveMain]
  cases axes.horizontal <;> rfl

theorem Axes.mainSize?_moveMain (axes : Axes) (frame : Frame) (coordinate : Int) :
    axes.mainSize? (axes.moveMain frame coordinate) = axes.mainSize? frame := by
  simp only [Axes.mainSize?, Axes.moveMain]
  cases axes.horizontal <;> rfl

theorem Axes.sameExtent_moveMain (axes : Axes) (frame : Frame) (coordinate : Int) :
    axes.SameExtent frame (axes.moveMain frame coordinate) := by
  have edges : frame.SameEdges (axes.moveMain frame coordinate) := by
    simp only [Axes.moveMain]
    cases axes.horizontal <;> exact ⟨rfl, rfl, rfl⟩
  refine ⟨edges, ?_⟩
  rw [Axes.mainSize, Axes.mainSize, mainSize?_moveMain]

theorem Item.Fitted.moveMain {item : Item} {kid : Kid} (fitted : item.Fitted axes kid)
    (coordinate : Int) :
    item.Fitted axes (kid.withFrame (axes.moveMain kid.frame coordinate)) := by
  refine ⟨⟨fitted.settled.plain.withFragment _, ?_⟩, ?_⟩
  · rw [Kid.frame_withFrame, Axes.mainSize?_moveMain]
    exact fitted.settled.known
  · rw [Kid.frame_withFrame, (axes.sameExtent_moveMain _ _).mainOuter, fitted.outer]

/-- **Items that are moved to the coordinates of a walk stand where it puts them.** -/
theorem moveMain_walked (axes : Axes) (track : MainTrack) (walk : MainWalk) {items : List Item}
    {sized : List Kid} (nodup : (items.map Item.child).Nodup) {R : Item → Kid → Kid → Prop}
    (given : ∀ item ∈ items, item.Becomes R kids sized) {final : List Kid}
    (moved : final = moveMain axes sized (track.moves axes walk
      (items.map fun item => (item, item.frameIn (sized.map Kid.fragment))))) :
    track.Walked axes walk (items.map fun item => (item, item.frameIn (final.map Kid.fragment))) ∧
      (∀ item ∈ items, item.Becomes (fun item kid last => ∃ laid coordinate, R item kid laid ∧
        last = laid.withFrame (axes.moveMain laid.frame coordinate)) kids final) ∧
      ∀ i, i ∉ items.map Item.child → final[i]? = sized[i]? := by
  generalize movesEq : track.moves axes walk
    (items.map fun item => (item, item.frameIn (sized.map Kid.fragment))) = moves at moved
  have listed : moves.map Prod.fst = items := by
    rw [← movesEq, MainTrack.map_fst_moves, List.map_map]
    exact List.map_id items
  have children : (moves.map fun move => move.1.child) = items.map Item.child := by
    rw [← listed, List.map_map]
    rfl
  -- What becomes of one child.
  have each : ∀ move ∈ moves, ∃ kid laid, kids[move.1.child]? = some kid ∧
      sized[move.1.child]? = some laid ∧ R move.1 kid laid ∧
      final[move.1.child]? = some (laid.withFrame (axes.moveMain laid.frame move.2)) := by
    intro move member
    obtain ⟨kid, laid, found, found', became⟩ :=
      given move.1 (listed ▸ List.mem_map_of_mem member)
    refine ⟨kid, laid, found, found', became, ?_⟩
    rw [moved]
    exact moveMain_of_mem (children ▸ nodup) member found'
  have move_of {item : Item} (member : item ∈ items) : ∃ move ∈ moves, move.1 = item :=
    List.mem_map.1 (listed ▸ member)
  refine ⟨?_, fun item member => ?_, fun i out => ?_⟩
  · have coordinates : track.coordinates axes walk
        (items.map fun item => (item, item.frameIn (final.map Kid.fragment))) =
          moves.map Prod.snd := by
      refine (MainTrack.coordinates_congr fun item member => ?_).trans
        (movesEq ▸ MainTrack.map_snd_moves track axes walk _).symm
      obtain ⟨move, among, rfl⟩ := move_of member
      obtain ⟨kid, laid, -, found, -, found'⟩ := each move among
      rw [Item.frameIn_of_getElem? found, Item.frameIn_of_getElem? found']
      exact axes.sameExtent_moveMain _ _
    simp only [MainTrack.Walked]
    rw [coordinates, List.map_map, ← listed, List.map_map]
    apply List.map_congr_left
    intro move member
    obtain ⟨kid, laid, -, -, -, found⟩ := each move member
    show move.2 = axes.mainCoordinate (move.1.frameIn (final.map Kid.fragment))
    rw [Item.frameIn_of_getElem? found, Kid.frame_withFrame, Axes.mainCoordinate_moveMain]
  · obtain ⟨move, among, rfl⟩ := move_of member
    obtain ⟨kid, laid, found, -, became, found'⟩ := each move among
    exact ⟨kid, _, found, found', laid, move.2, became, rfl⟩
  · rw [moved]
    exact moveMain_of_notMem (children ▸ out)

theorem Item.Given.moveMain {item : Item} {kid laid : Kid} (given : item.Given axes kid laid)
    (coordinate : Int) :
    item.Given axes kid (laid.withFrame (axes.moveMain laid.frame coordinate)) := by
  refine ⟨given.1.moveMain coordinate, ?_⟩
  rw [Kid.frame_withFrame, (axes.sameExtent_moveMain _ _).margin, given.2]

namespace Line

variable {container : Container} {filled : FilledLine} {kids' : List Kid}

/-! ## One line -/

theorem countAutoMargins_eq {items : List Item} {frames : Item → Frame}
    (margins : ∀ item ∈ items, ∃ kid, kids[item.child]? = some kid ∧
      (frames item).margin = kid.frame.margin) :
    countAutoMargins axes items kids = ((framesInFlow frames items).map axes.autoMainMargins).sum := by
  simp only [countAutoMargins, framesInFlow]
  induction items with
  | nil => rfl
  | cons item rest ih =>
      obtain ⟨⟨kid, found, margin⟩, margins⟩ := List.forall_mem_cons.1 margins
      have autos : axes.autoMainMargins (frames item) = axes.autoMainMargins kid.frame := by
        simp only [Axes.autoMainMargins, Frame.isAuto]
        rw [margin]
      rw [List.map_cons, List.sum_cons, ih margins, found, List.filter_cons]
      cases out : item.outOfFlow with
      | true => simp
      | false => simp [autos]

/-- The line has used what its items in flow and the gaps between them take, as long as
adding that up in the order in which they are frozen never leaves the range of pixels. -/
def AddsUp (container : Container) (filled : FilledLine) : Prop :=
  Pixel.Running (filled.line.countingOrder filled.items container.mainSpace container.mainGap ++
      [Pixel.gapsBetween filled.line.inFlow container.mainGap]) →
    filled.line.used = (sizesInFlow filled.items).sum +
      Pixel.gapsBetween filled.line.inFlow container.mainGap

/-- A line adds up when its items are flexed, whatever cross size and place it gets. -/
theorem addsUp_flex (container : Container) {line last : Line} (main : last.main = line.main)
    (inFlow : last.inFlow = line.inFlow) (items : List Item)
    (used : last.used = (line.flex items container.mainSpace container.mainGap).1.used) :
    AddsUp container ⟨last, (line.flex items container.mainSpace container.mainGap).2⟩ := by
  intro running
  rw [sum_sizesInFlow]
  exact used.trans (used_flex_again main inFlow items _ _ running)

/-- A line whose items are placed among the children: fitted, and where the walk puts
them. -/
structure Placed (container : Container) (filled : FilledLine) (kids : List Kid) : Prop where
  laid : Laid container filled fun item => item.frameIn (kids.map Kid.fragment)
  settled : ∀ item ∈ filled.items, ∃ kid, kids[item.child]? = some kid ∧
    kid.Settled container.axes
  used : AddsUp container filled

theorem laid_congr {frames frames' : Item → Frame} (laid : Laid container filled frames)
    (same : ∀ item ∈ filled.items, container.axes.SameExtent (frames item) (frames' item))
    (stays : ∀ item ∈ filled.items, container.axes.mainCoordinate (frames' item) =
      container.axes.mainCoordinate (frames item)) : Laid container filled frames' where
  walked := laid.walked.congr same stays
  outer item member := (same item member).mainOuter.trans (laid.outer item member)
  autos := by
    rw [laid.autos, framesInFlow, framesInFlow, List.map_map, List.map_map]
    congr 1
    apply List.map_congr_left
    intro item member
    exact (same item (List.mem_of_mem_filter member)).autoMainMargins.symm

/-- A line depends on the children of its own items only. -/
theorem Placed.congr (placed : Placed container filled kids)
    (same : ∀ item ∈ filled.items, kids'[item.child]? = kids[item.child]?) :
    Placed container filled kids' where
  laid := by
    refine laid_congr placed.laid (fun item member => ?_) fun item member => ?_
    · rw [Item.frameIn_congr (same item member)]
      exact .refl _ _
    · rw [Item.frameIn_congr (same item member)]
  settled item member := by
    rw [same item member]
    exact placed.settled item member
  used := placed.used

theorem countAutoMargins_congr (axes : Axes) (kids : List Kid) {items others : List Item}
    (same : List.Forall₂ (fun item other => other.child = item.child ∧
      other.outOfFlow = item.outOfFlow) items others) :
    countAutoMargins axes others kids = countAutoMargins axes items kids := by
  simp only [countAutoMargins]
  induction same with
  | nil => rfl
  | cons first _ ih =>
      rw [List.map_cons, List.map_cons, List.sum_cons, List.sum_cons, ih, first.1, first.2]

/-- **A line is placed item by item.**  Its items become what giving them their target
makes of them, at the coordinates of the walk, and the other children are left alone. -/
theorem place_each {R : Item → Kid → Kid → Prop} (nodup : (filled.items.map Item.child).Nodup)
    (each : ∀ line : Line,
      ∀ item ∈ (line.flex filled.items container.mainSpace container.mainGap).2, item.With
        (fun item kid => Run.Ensures (R item kid) (item.giveMainSize container.axes kid)) kids) :
    Run.Ensures (fun a =>
        (MainTrack.ofLine container a.1.line).Walked container.axes
          (MainTrack.ofLine container a.1.line).begin
          (a.1.items.map fun item => (item, item.frameIn (a.2.map Kid.fragment))) ∧
        (∀ item ∈ a.1.items, item.Becomes (fun item kid last => ∃ laid coordinate,
          R item kid laid ∧ last = laid.withFrame (container.axes.moveMain laid.frame coordinate))
          kids a.2) ∧
        (∀ i, i ∉ filled.items.map Item.child → a.2[i]? = kids[i]?) ∧
        a.1.line.autoMargins = countAutoMargins container.axes a.1.items kids ∧
        AddsUp container a.1)
      (place container filled kids) := by
  simp only [place]
  have autos := countAutoMargins_congr container.axes kids
    ((map_unflexed_flex
      { filled.line with autoMargins := countAutoMargins container.axes filled.items kids }
      filled.items container.mainSpace container.mainGap).imp fun item after same =>
        ⟨(congrArg Item.child same :), (congrArg Item.outOfFlow same :)⟩)
  generalize counted : ({ filled.line with
    autoMargins := countAutoMargins container.axes filled.items kids } : Line) = line at autos ⊢
  have children := map_child_flex line filled.items container.mainSpace container.mainGap
  obtain ⟨used, frozen, counts⟩ :=
    counts_flex line filled.items container.mainSpace container.mainGap
  have adds {last : Line} (main : last.main = line.main) (inFlow : last.inFlow = line.inFlow) :=
    addsUp_flex container main inFlow filled.items
  have each := each line
  generalize line.flex filled.items container.mainSpace container.mainGap = flexed at *
  rw [← children] at nodup ⊢
  refine Run.ensures_bind (Item.giveMainSizes_each nodup each) ?_
  rintro ⟨entries, sized⟩ ⟨listed, becomes, rests⟩
  dsimp only at listed becomes rests ⊢
  rw [MainTrack.zip_coordinates, listed]
  have moved := moveMain_walked container.axes (MainTrack.ofLine container flexed.1)
    (MainTrack.ofLine container flexed.1).begin nodup becomes rfl
  generalize moveMain container.axes sized _ = final at moved ⊢
  obtain ⟨walked, becomes', rests'⟩ := moved
  refine Run.ensures_pure ⟨walked, becomes', fun i out => (rests' i out).trans (rests i out), ?_, ?_⟩
  · show flexed.1.autoMargins = _
    rw [counts, ← counted, autos]
  · refine adds ?_ ?_ rfl
    · show flexed.1.main = line.main
      rw [counts]
    · show flexed.1.inFlow = line.inFlow
      rw [counts]

theorem targeted_flex (container : Container) (line : Line) {items : List Item}
    (ready : ∀ item ∈ items, item.With (Item.Ready container.axes) kids) :
    ∀ after ∈ (line.flex items container.mainSpace container.mainGap).2,
      after.With (Item.Targeted container.axes) kids := by
  intro after member
  obtain ⟨item, among, same⟩ := exists_of_mem_right
    (map_unflexed_flex line items container.mainSpace container.mainGap) member
  obtain ⟨kid, found, plain, -, least⟩ := ready item among
  have target := minMain_le_flex line container.mainSpace container.mainGap (fun item member => by
    obtain ⟨kid, -, ready⟩ := ready item member
    exact ready.limited) after member
  have child : after.child = item.child := (congrArg Item.child same :)
  have minMain : after.minMain = item.minMain := (congrArg Item.minMain same :)
  refine ⟨kid, child ▸ found, plain, ?_⟩
  omega

/-- **A line of plain children is placed where the walk puts its items.** -/
theorem place_placed (nodup : (filled.items.map Item.child).Nodup)
    (ready : ∀ item ∈ filled.items, item.With (Item.Ready container.axes) kids) :
    Run.Ensures (fun a => Placed container a.1 a.2 ∧
        ∀ i, i ∉ filled.items.map Item.child → a.2[i]? = kids[i]?)
      (place container filled kids) := by
  have placed := place_each (R := Item.Given container.axes) nodup fun line item member => by
    obtain ⟨kid, found, plain, least⟩ := targeted_flex container line ready item member
    exact ⟨kid, found, Item.giveMainSize_fitted plain least⟩
  refine placed.mono ?_
  rintro a ⟨walked, becomes, rests, autos, used⟩
  have given {item : Item} (member : item ∈ a.1.items) :
      item.Becomes (Item.Given container.axes) kids a.2 := by
    obtain ⟨kid, -, found, found', laid, coordinate, given, rfl⟩ := becomes item member
    exact ⟨kid, _, found, found', given.moveMain coordinate⟩
  refine ⟨⟨⟨walked, fun item member => ?_, ?_⟩, fun item member => ?_, used⟩, rests⟩
  · obtain ⟨kid, last, -, found, fitted, -⟩ := given member
    rw [Item.frameIn_of_getElem? found, fitted.outer]
  · rw [autos]
    apply countAutoMargins_eq
    intro item member
    obtain ⟨kid, last, found, found', -, margin⟩ := given member
    refine ⟨kid, found, ?_⟩
    rw [Item.frameIn_of_getElem? found', margin]
  · obtain ⟨kid, last, -, found, fitted, -⟩ := given member
    exact ⟨last, found, fitted.settled⟩

/-! ## All lines -/

/-- The number of its line does not matter for whether an item has a property. -/
def Unnumbered (P : Item → Kid → Prop) : Prop :=
  ∀ (item : Item) (kid : Kid) (index : Nat), P item kid → P { item with line := index } kid

theorem unnumbered_ready (axes : Axes) : Unnumbered (Item.Ready axes) :=
  fun _ _ _ ready => ⟨ready.plain, ready.limited, ready.least⟩

/-- **Lines are placed one after the other.**  What placing a line makes of it holds in
the end, if it depends on the children of its own items only. -/
theorem placeAll_each {P : Item → Kid → Prop} {Q : FilledLine → List Kid → Prop}
    (unnumbered : Unnumbered P)
    (place : ∀ (filled : FilledLine) (kids : List Kid), (filled.items.map Item.child).Nodup →
      (∀ item ∈ filled.items, item.With P kids) →
      Run.Ensures (fun a => Q a.1 a.2 ∧ ∀ i, i ∉ filled.items.map Item.child → a.2[i]? = kids[i]?)
        (place container filled kids))
    (stays : ∀ (filled : FilledLine) (kids kids' : List Kid), Q filled kids →
      (∀ item ∈ filled.items, kids'[item.child]? = kids[item.child]?) → Q filled kids')
    (index : Nat) {lines : List FilledLine}
    (nodup : ((lines.flatMap FilledLine.items).map Item.child).Nodup)
    (ready : ∀ item ∈ lines.flatMap FilledLine.items, item.With P kids) :
    Run.Ensures (fun a => (∀ filled ∈ a.1, Q filled a.2) ∧
        ∀ i, i ∉ (lines.flatMap FilledLine.items).map Item.child → a.2[i]? = kids[i]?)
      (placeAll container index lines kids) := by
  induction lines generalizing index kids with
  | nil => exact Run.ensures_pure ⟨fun _ member => absurd member List.not_mem_nil, fun _ _ => rfl⟩
  | cons filled rest ih =>
      rw [List.flatMap_cons] at ready nodup ⊢
      rw [List.map_append] at nodup ⊢
      obtain ⟨nodup, nodups, apart⟩ := List.nodup_append.1 nodup
      obtain ⟨here, there⟩ := List.forall_mem_append.1 ready
      have children : (filled.items.map fun item => { item with line := index }).map Item.child =
          filled.items.map Item.child := by
        rw [List.map_map]
        rfl
      have first := place ⟨filled.line, filled.items.map fun item => { item with line := index }⟩ kids
        (children ▸ nodup) fun item member => by
          obtain ⟨source, among, rfl⟩ := List.mem_map.1 member
          obtain ⟨kid, found, holds⟩ := here source among
          exact ⟨kid, found, unnumbered source kid index holds⟩
      rw [placeAll]
      refine Run.ensures_bind (first.and
        (place_ensures_numbered (fun item member => (here item member).seated) index)) ?_
      rintro a ⟨⟨holds, untouched⟩, kept, -⟩
      dsimp only at untouched
      rw [children] at untouched
      -- The lines have different children, so placing one leaves those of the others alone.
      have later {item : Item} (member : item ∈ rest.flatMap FilledLine.items) :
          a.2[item.child]? = kids[item.child]? :=
        untouched _ fun inside => apart _ inside _ (List.mem_map_of_mem member) rfl
      refine Run.ensures_bind
        (ih (index + 1) nodups fun item member => (there item member).congr (later member)) ?_
      rintro b ⟨all, untouched'⟩
      refine Run.ensures_pure ⟨List.forall_mem_cons.2 ⟨?_, all⟩, fun i out => ?_⟩
      · refine stays _ _ _ holds fun item member => untouched' _ ?_
        intro inside
        exact apart _ (kept.map_child ▸ List.mem_map_of_mem member) _ inside rfl
      · rw [List.mem_append, not_or] at out
        exact (untouched' i out.2).trans (untouched i out.1)

end Line

structure Flow.Placed (flow : Flow) : Prop where
  gap : 0 ≤ flow.container.mainGap
  placed : ∀ filled ∈ flow.lines, Line.Placed flow.container filled flow.kids
  sound : ∀ filled ∈ flow.lines, Line.Sound filled

/-- **What placing makes of each line holds of all lines of a container.** -/
theorem Container.flow_each {resolve : Resolver} {style : Style} {frame : Frame} {kids : List Kid}
    {available : Int} {P : Item → Kid → Prop} {Q : FilledLine → List Kid → Prop}
    (unnumbered : Line.Unnumbered P)
    (measured : Run.Ensures (fun a => ∀ item ∈ a.1, item.With P a.2)
      (Item.measureAll resolve (prepare resolve style frame available) 0 0 kids))
    (place : ∀ (filled : FilledLine) (kids : List Kid), (filled.items.map Item.child).Nodup →
      (∀ item ∈ filled.items, item.With P kids) →
      Run.Ensures (fun a => Q a.1 a.2 ∧ ∀ i, i ∉ filled.items.map Item.child → a.2[i]? = kids[i]?)
        (Line.place (prepare resolve style frame available) filled kids))
    (stays : ∀ (filled : FilledLine) (kids kids' : List Kid), Q filled kids →
      (∀ item ∈ filled.items, kids'[item.child]? = kids[item.child]?) → Q filled kids') :
    Run.Ensures (fun flow => flow.container = prepare resolve style frame available ∧
        ∀ filled ∈ flow.lines, Q filled flow.kids ∧ Line.Sound filled)
      (flow resolve style frame kids available) := by
  simp only [flow]
  generalize prepare resolve style frame available = container at *
  refine Run.ensures_bind ((Item.measureAll_numbered 0 0 kids).and measured) ?_
  rintro ⟨items, sized⟩ ⟨⟨numbered, -⟩, ready⟩
  dsimp only at numbered ready ⊢
  have all := Line.items_flatMap_breakAll container.breaking (Item.sortByOrder items)
  obtain ⟨nodup, sorted⟩ := sorted_facts numbered
  have ready' : ∀ item ∈ (Line.breakAll container.breaking (Item.sortByOrder items)).flatMap
      FilledLine.items, item.With P sized := by
    rw [all]
    exact fun item member => ready item (sorted item member).1
  simp only [arrange]
  refine Run.ensures_bind
    ((Line.placeAll_each unnumbered place stays 0 (by rwa [all]) ready').and
      (Line.placeAll_ensures container 0 fun item member => (ready' item member).seated)) ?_
  rintro ⟨lines, laid⟩ ⟨⟨placed, -⟩, kept, -⟩
  have sound := Line.sound_placed kept (Line.sound_breakAll _ _)
  exact Run.ensures_pure ⟨rfl, fun filled member => ⟨placed filled member, sound filled member⟩⟩

/-- **A container of plain children places all its lines.** -/
theorem Container.flow_placed {resolve : Resolver} {style : Style} {frame : Frame}
    {kids : List Kid} {available : Int}
    (plain : ∀ kid ∈ kids, kid.box.participates = true → kid.Plain) :
    Run.Ensures Flow.Placed (flow resolve style frame kids available) := by
  have gap := mainGap_nonneg resolve style frame available
  have measured : Run.Ensures
      (fun a => ∀ item ∈ a.1, item.With (Item.Ready (prepare resolve style frame available).axes) a.2)
      (Item.measureAll resolve (prepare resolve style frame available) 0 0 kids) :=
    (Item.measureAll_ready 0 0 plain).mono fun a ready item member => by
      obtain ⟨-, -, kid, -, found, holds⟩ := ready item member
      exact ⟨kid, found, holds⟩
  refine (flow_each (Line.unnumbered_ready _) measured
    (fun _ _ nodup ready => Line.place_placed nodup ready) fun _ _ _ placed => placed.congr).mono ?_
  rintro flow ⟨same, lines⟩
  rw [← same] at gap lines
  exact ⟨gap, fun filled member => (lines filled member).1, fun filled member => (lines filled member).2⟩

/-! ## Closing -/

theorem Line.laid_of_steady {container : Container} {filled : FilledLine} {kids after : List Kid}
    (placed : Placed container filled kids)
    (steady : ∀ (i : Nat) (kid : Kid), kids[i]? = some kid → kid.Settled container.axes →
      ∃ last, after[i]? = some last ∧ kid.Steady container.axes last) :
    Laid container filled fun item => item.frameIn (after.map Kid.fragment) := by
  have each : ∀ item ∈ filled.items, ∃ kid last, kids[item.child]? = some kid ∧
      after[item.child]? = some last ∧ kid.Steady container.axes last := by
    intro item member
    obtain ⟨kid, found, settled⟩ := placed.settled item member
    obtain ⟨last, found', stays⟩ := steady item.child kid found settled
    exact ⟨kid, last, found, found', stays⟩
  refine laid_congr placed.laid (fun item member => ?_) fun item member => ?_
  · obtain ⟨kid, last, found, found', stays⟩ := each item member
    rw [Item.frameIn_of_getElem? found, Item.frameIn_of_getElem? found']
    exact stays.extent
  · obtain ⟨kid, last, found, found', stays⟩ := each item member
    rw [Item.frameIn_of_getElem? found, Item.frameIn_of_getElem? found']
    exact stays.stays

/-- What closing a container leaves of its children along the main axis. -/
theorem Flow.close_steady (resolve : Resolver) (flow : Flow) :
    Run.Ensures (fun result => result.frame = flow.container.finalFrame flow.mainSize flow.crossSize ∧
        ∃ after : List Kid, result.children = after.map Kid.fragment ∧
          ∀ (i : Nat) (kid : Kid), flow.kids[i]? = some kid → kid.Settled flow.container.axes →
            ∃ last, after[i]? = some last ∧ kid.Steady flow.container.axes last)
      (flow.close resolve) := by
  simp only [close, Container.align]
  exact Run.ensures_bind (Container.alignAll_settled resolve _ flow.kids) fun kids steady =>
    Run.ensures_pure ⟨rfl, kids, rfl, steady⟩

/-- What closing a container of placed lines gives. -/
theorem Flow.close_laid (resolve : Resolver) {flow : Flow} (placed : flow.Placed) :
    Run.Ensures (fun result => ∀ filled ∈ flow.lines,
        Line.Laid flow.container filled (Item.frameIn result.children))
      (flow.close resolve) := by
  refine (flow.close_steady resolve).mono ?_
  rintro result ⟨-, kids, children, steady⟩ filled member
  rw [children]
  exact Line.laid_of_steady (placed.placed filled member) steady

end FlexLayout
