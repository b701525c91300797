/-
# FlexLayout.Proofs.Idempotence.Changes -- what a run leaves to be made anew

A flex container changes its items only: it gives them frames, lays them out, and hands
late height to those that it stretches.  So whatever differs afterwards below an item is
what the next layout makes anew (`Container.layOut_changed`), if that holds of each of
these steps (`Kid.Renewing`).

Late height is the one step that may reach a box no layout does: a generated box inside
a column is no item, but if it is a column itself, it gets a share.  Where no box is in
that place (`Box.sparesGenerated`), layout changes nothing but what it makes anew
(`Box.layOut_renewed`).
-/
import FlexLayout.Proofs.Idempotence.Renewed
import FlexLayout.Proofs.Spreading.Steps

namespace FlexLayout

set_option autoImplicit false

/-! ## Late height -/

def Box.isColumn (box : Box) : Bool := box.kind.isFlex && !box.style.direction.axes.horizontal

mutual

/-- No column below the box is a generated child of a column, so that late height reaches
no box which is not laid out. -/
def Box.sparesGenerated : Box → Bool
  | ⟨kind, style, _, _, _, boxes⟩ =>
      sparesAll (kind.isFlex && !style.direction.axes.horizontal) boxes

def sparesAll (column : Bool) : List Box → Bool
  | [] => true
  | box :: boxes =>
      (!column || box.participates || !box.isColumn) && box.sparesGenerated && sparesAll column boxes

end

theorem spares_of_mem {column : Bool} {boxes : List Box} (spares : sparesAll column boxes = true) :
    ∀ box ∈ boxes, box.sparesGenerated = true := by
  induction boxes with
  | nil => exact fun _ member => absurd member List.not_mem_nil
  | cons box rest ih =>
      simp only [sparesAll, Bool.and_eq_true] at spares
      exact List.forall_mem_cons.2 ⟨spares.1.2, ih spares.2⟩

theorem anew_modify (deep : Bool) {boxes : List Box} {i : Nat}
    (takes : ∀ box, boxes[i]? = some box → box.participates = true) (frame : Frame)
    (fragments : List Fragment) :
    Anew deep true boxes fragments
      (fragments.modify i fun fragment => { fragment with frame := frame }) := by
  induction boxes generalizing i fragments with
  | nil => trivial
  | cons box rest ih =>
      cases fragments with
      | nil =>
          rw [List.modify_nil]
          exact anew_refl deep true _ _
      | cons fragment fragments =>
          cases i with
          | zero =>
              refine ⟨?_, anew_refl deep true _ _⟩
              rw [if_pos (show box.relaid deep true = true from takes box rfl)]
              exact box.renewed_refl deep _
          | succ i =>
              refine ⟨?_, ih (fun box found => takes box found) fragments⟩
              split
              · exact box.renewed_refl deep _
              · rfl

namespace Slack

theorem child_settle (resolve : Resolver) (style : Style) (container : Frame) (height : Int)
    (entries : List Entry) {entry : Entry}
    (member : entry ∈ settle resolve style container height entries) :
    entry.child ∈ entries.map Entry.child := by
  rcases settle_cases resolve style container height entries with ⟨-, none⟩ | ⟨-, lifts⟩
  · rw [none] at member
    exact absurd member List.not_mem_nil
  · rw [← child_eq_of_lifts lifts]
    exact List.mem_map_of_mem member

theorem writeBack_anew (deep : Bool) {boxes : List Box} {entries : List Entry}
    (takes : ∀ entry ∈ entries, ∀ box, boxes[entry.child]? = some box → box.participates = true)
    (fragments : List Fragment) :
    Anew deep true boxes fragments (writeBack fragments entries) := by
  simp only [writeBack]
  induction entries generalizing fragments with
  | nil => exact anew_refl deep true _ _
  | cons entry rest ih =>
      obtain ⟨first, rests⟩ := List.forall_mem_cons.1 takes
      exact (anew_modify deep first entry.frame fragments).trans (ih rests _)

theorem spreadHere_anew (deep : Bool) (resolve : Resolver) (style : Style) (boxes : List Box)
    (fragment : Fragment) :
    Anew deep true boxes fragment.children (spreadHere resolve style boxes fragment) := by
  simp only [spreadHere]
  split
  · exact anew_refl deep true _ _
  · apply writeBack_anew
    intro entry member box found
    obtain ⟨source, among, same⟩ := List.mem_map.1 (child_settle _ _ _ _ _ member)
    have listed := (List.mergeSort_perm _ Entry.precedes).mem_iff.1 among
    obtain ⟨k, position, there, -, participates, -⟩ := mem_entriesFrom.1 listed
    rw [← same, position, Nat.zero_add, there] at found
    exact Option.some.inj found ▸ participates

theorem spread_of_not_column (resolve : Resolver) (box : Box) (other : box.isColumn = false)
    (fragment : Fragment) : spread resolve box fragment = fragment := by
  obtain ⟨kind, style, generated, least, most, boxes⟩ := box
  simp only [spread]
  exact if_neg (by rw [show (_ && _) = false from other]; exact Bool.false_ne_true)

mutual

/-- **Late height changes nothing but what is made anew.** -/
theorem spread_renewed (deep : Bool) (resolve : Resolver) (box : Box)
    (spares : box.sparesGenerated = true) (fragment : Fragment) :
    box.Renewed deep fragment.children (spread resolve box fragment).children := by
  obtain ⟨kind, style, generated, least, most, boxes⟩ := box
  cases column : kind.isFlex && !style.direction.axes.horizontal with
  | false =>
      rw [spread_of_not_column resolve ⟨kind, style, generated, least, most, boxes⟩ column]
      exact Box.renewed_refl deep _ _
  | true =>
      simp only [Box.sparesGenerated] at spares
      rw [column] at spares
      simp only [spread]
      rw [column, if_pos rfl]
      show Anew deep kind.isFlex boxes _ _
      rw [(Bool.and_eq_true_iff.1 column).1]
      exact (spreadHere_anew deep resolve style boxes fragment).trans
        (spreadAll_anew deep resolve boxes spares _)

theorem spreadAll_anew (deep : Bool) (resolve : Resolver) (boxes : List Box)
    (spares : sparesAll true boxes = true) (fragments : List Fragment) :
    Anew deep true boxes fragments (spreadAll resolve boxes fragments) := by
  match boxes, fragments with
  | [], _ => exact trivial
  | _ :: _, [] => exact anew_refl deep true _ _
  | box :: boxes, fragment :: fragments =>
      simp only [sparesAll, Bool.and_eq_true, Bool.not_true, Bool.false_or, Bool.or_eq_true,
        Bool.not_eq_true'] at spares
      refine ⟨?_, spreadAll_anew deep resolve boxes spares.2 fragments⟩
      show if box.participates then _ else _
      split
      next => exact spread_renewed deep resolve box spares.1.2 fragment
      next aside => exact spread_of_not_column resolve box (spares.1.1.resolve_left aside) fragment

end

end Slack

/-! ## The children of a flex container -/

/-- A child that takes part may have new geometry, as far as the next layout makes it
anew; other children are as they were. -/
structure Kid.Changed (deep : Bool) (kid after : Kid) : Prop where
  box : after.box = kid.box
  layOut : after.layOut = kid.layOut
  fragment : if kid.box.participates then
    kid.box.Renewed deep kid.fragment.children after.fragment.children
    else after.fragment = kid.fragment

/-- Laying out the child and handing it late height change what is made anew. -/
structure Kid.Renewing (deep : Bool) (resolve : Resolver) (kid : Kid) : Prop where
  layOut : ∀ fragment width, Run.Ensures
    (fun laid => kid.box.Renewed deep fragment.children laid.children) (kid.layOut fragment width)
  spread : ∀ fragment,
    kid.box.Renewed deep fragment.children (Slack.spread resolve kid.box fragment).children

namespace Kid.Changed

variable {deep : Bool} {resolve : Resolver} {kid after : Kid}

theorem refl (deep : Bool) (kid : Kid) : kid.Changed deep kid := by
  refine ⟨rfl, rfl, ?_⟩
  split
  · exact kid.box.renewed_refl deep _
  · rfl

theorem withFragment (changed : kid.Changed deep after) (participates : kid.box.participates = true)
    {fragment : Fragment}
    (renewed : kid.box.Renewed deep after.fragment.children fragment.children) :
    kid.Changed deep (after.withFragment fragment) := by
  have before := changed.fragment
  rw [if_pos participates] at before
  refine ⟨changed.box, changed.layOut, ?_⟩
  rw [if_pos participates]
  exact before.trans renewed

theorem withFrame (changed : kid.Changed deep after) (participates : kid.box.participates = true)
    (frame : Frame) : kid.Changed deep (after.withFrame frame) :=
  changed.withFragment participates (kid.box.renewed_refl deep _)

theorem relaid (changed : kid.Changed deep after) (participates : kid.box.participates = true)
    (renewing : kid.Renewing deep resolve) (frame : Frame) (width : Int) :
    Run.Ensures (fun laid => kid.Changed deep (after.withFragment laid))
      (after.layOut (after.withFrame frame).fragment width) := by
  rw [changed.layOut]
  exact (renewing.layOut _ width).mono fun laid renewed => changed.withFragment participates renewed

theorem spread (changed : kid.Changed deep after) (participates : kid.box.participates = true)
    (renewing : kid.Renewing deep resolve) :
    kid.Changed deep (after.withFragment (Slack.spread resolve after.box after.fragment)) := by
  rw [changed.box]
  exact changed.withFragment participates (renewing.spread _)

theorem giveMainSize (changed : kid.Changed deep after) (participates : kid.box.participates = true)
    (renewing : kid.Renewing deep resolve) (axes : Axes) (item : Item) :
    Run.Ensures (kid.Changed deep) (Item.giveMainSize axes item after) := by
  simp only [Item.giveMainSize]
  split
  · refine Run.ensures_bind (changed.relaid participates renewing _ _) fun laid changed => ?_
    exact Run.ensures_pure (changed.withFrame participates _)
  · split
    · exact Run.ensures_pure changed
    · exact Run.ensures_bind (changed.relaid participates renewing _ _) fun laid changed =>
        Run.ensures_pure changed

theorem alignKid (changed : kid.Changed deep after) (participates : kid.box.participates = true)
    (renewing : kid.Renewing deep resolve) (container : Container) (line : Line) (item : Item) :
    Run.Ensures (kid.Changed deep) (Container.alignKid resolve container line item after) := by
  have stretched : Run.Ensures (kid.Changed deep)
      (Container.stretch resolve container.axes item line.cross after) := by
    simp only [Container.stretch]
    split
    · exact Run.ensures_pure changed
    · refine Run.ensures_bind (changed.relaid participates renewing _ _) fun laid changed => ?_
      exact Run.ensures_pure (changed.spread participates renewing)
  rw [Container.alignKid_eq]
  split
  · refine Run.ensures_bind stretched fun _ changed => ?_
    exact Run.ensures_pure (changed.withFrame participates _)
  · exact Run.ensures_pure (changed.withFrame participates _)

end Kid.Changed

namespace Item

def Takes (kids : List Kid) (item : Item) : Prop :=
  ∀ kid, kids[item.child]? = some kid → kid.box.participates = true

theorem takes_of_children {kids : List Kid} {items others : List Item}
    (same : others.map Item.child = items.map Item.child) (takes : ∀ item ∈ items, item.Takes kids) :
    ∀ item ∈ others, item.Takes kids := by
  intro item member
  have among : item.child ∈ others.map Item.child := List.mem_map_of_mem member
  rw [same] at among
  obtain ⟨source, there, child⟩ := List.mem_map.1 among
  have property := takes source there
  simp only [Takes] at property ⊢
  rwa [← child]

end Item

section

variable {deep : Bool} {resolve : Resolver} {kids after : List Kid}

theorem changed_set (changed : List.Forall₂ (Kid.Changed deep) kids after) {i : Nat} {new : Kid}
    (step : ∀ kid, kids[i]? = some kid → kid.Changed deep new) :
    List.Forall₂ (Kid.Changed deep) kids (after.set i new) := by
  induction changed generalizing i with
  | nil => exact .nil
  | cons first rest ih =>
      cases i with
      | zero => exact .cons (step _ rfl) rest
      | succ i => exact .cons first (ih fun kid found => step kid found)

theorem changed_modify (changed : List.Forall₂ (Kid.Changed deep) kids after) {i : Nat}
    {step : Kid → Kid} (each : ∀ kid last, kids[i]? = some kid → kid.Changed deep last →
      kid.Changed deep (step last)) :
    List.Forall₂ (Kid.Changed deep) kids (after.modify i step) := by
  induction changed generalizing i with
  | nil =>
      rw [List.modify_nil]
      exact .nil
  | cons first rest ih =>
      cases i with
      | zero => exact .cons (each _ _ rfl first) rest
      | succ i => exact .cons first (ih fun kid last found => each kid last found)

theorem changed_get (changed : List.Forall₂ (Kid.Changed deep) kids after) {i : Nat} {last : Kid}
    (found : after[i]? = some last) : ∃ kid, kids[i]? = some kid ∧ kid.Changed deep last := by
  induction changed generalizing i with
  | nil => simp at found
  | @cons kid _ kids _ first rest ih =>
      cases i with
      | zero => exact ⟨kid, rfl, Option.some.inj found ▸ first⟩
      | succ i => exact ih found

/-- **A run on one child that takes part changes what is made anew**, and so does putting
its result in the child's place. -/
theorem changed_step (renewing : ∀ kid ∈ kids, kid.Renewing deep resolve)
    (changed : List.Forall₂ (Kid.Changed deep) kids after) {item : Item} (takes : item.Takes kids)
    {last : Kid} (found : after[item.child]? = some last) {run : Run Failure Kid}
    (each : ∀ kid : Kid, kid.Changed deep last → kid.box.participates = true →
      kid.Renewing deep resolve → Run.Ensures (kid.Changed deep) run) :
    Run.Ensures (fun new => List.Forall₂ (Kid.Changed deep) kids (after.set item.child new)) run := by
  obtain ⟨kid, at_, first⟩ := changed_get changed found
  refine (each kid first (takes kid at_) (renewing kid (List.mem_of_getElem? at_))).mono ?_
  intro new step
  refine changed_set changed fun other there => ?_
  rwa [← Option.some.inj (at_.symm.trans there)]

namespace Item

theorem giveMainSizes_changed (renewing : ∀ kid ∈ kids, kid.Renewing deep resolve) (axes : Axes)
    {items : List Item} (takes : ∀ item ∈ items, item.Takes kids)
    (changed : List.Forall₂ (Kid.Changed deep) kids after) :
    Run.Ensures (fun a => List.Forall₂ (Kid.Changed deep) kids a.2 ∧
      ∀ entry ∈ a.1, entry.1.Takes kids) (giveMainSizes axes items after) := by
  induction items generalizing after with
  | nil => exact Run.ensures_pure ⟨changed, fun _ member => absurd member List.not_mem_nil⟩
  | cons item rest ih =>
      obtain ⟨here, later⟩ := List.forall_mem_cons.1 takes
      rw [giveMainSizes]
      split
      · exact ih later changed
      · next last found =>
          refine Run.ensures_bind (changed_step renewing changed here found
            fun kid first participates renewing =>
              first.giveMainSize participates renewing axes item) fun new changed => ?_
          refine Run.ensures_bind (ih later changed) ?_
          rintro b ⟨changed, listed⟩
          exact Run.ensures_pure ⟨changed, List.forall_mem_cons.2 ⟨here, listed⟩⟩

theorem measure_changed (container : Container) (child index : Nat) {kid : Kid}
    (participates : kid.box.participates = true) (renewing : kid.Renewing deep resolve) :
    Run.Ensures (fun a => kid.Changed deep a.2) (measure resolve container child index kid) := by
  have start := Kid.Changed.refl deep kid
  simp only [measure]
  split
  · exact Run.ensures_pure (start.withFrame participates _)
  · refine Run.ensures_bind (start.relaid participates renewing _ _) fun laid changed => ?_
    exact Run.ensures_pure changed

theorem measureAll_changed (container : Container) (child index : Nat)
    (renewing : ∀ kid ∈ kids, kid.Renewing deep resolve) :
    Run.Ensures (fun a => List.Forall₂ (Kid.Changed deep) kids a.2)
      (measureAll resolve container child index kids) := by
  induction kids generalizing child index with
  | nil => exact Run.ensures_pure .nil
  | cons kid rest ih =>
      obtain ⟨here, later⟩ := List.forall_mem_cons.1 renewing
      rw [measureAll]
      split
      · next participates =>
          refine Run.ensures_bind (measure_changed container child index participates here)
            fun a first => ?_
          refine Run.ensures_bind (ih (child + 1) (index + 1) later) fun b rests => ?_
          exact Run.ensures_pure (.cons first rests)
      · refine Run.ensures_bind (ih (child + 1) index later) fun b rests => ?_
        exact Run.ensures_pure (.cons (.refl deep kid) rests)

theorem measureAll_takes (container : Container) (kids : List Kid) :
    Run.Ensures (fun a => ∀ item ∈ a.1, item.Takes kids)
      (measureAll resolve container 0 0 kids) := by
  have each (kid : Kid) (_ : kid ∈ kids) (participates : kid.box.participates = true)
      (child index : Nat) : Run.Ensures (fun a => a.1.child = child ∧ kid.box.participates = true)
        (measure resolve container child index kid) :=
    (measure_numbered child index kid).mono fun a same => ⟨same.1, participates⟩
  refine (measureAll_each (P := fun kid _ _ => kid.box.participates = true) 0 0 each).mono ?_
  intro a measured item member kid found
  obtain ⟨-, source, _, there, -, participates⟩ := measured item member
  rw [Nat.sub_zero, found] at there
  exact Option.some.inj there ▸ participates

end Item

theorem moveMain_changed (axes : Axes) {moves : List (Item × Int)}
    (takes : ∀ move ∈ moves, move.1.Takes kids)
    (changed : List.Forall₂ (Kid.Changed deep) kids after) :
    List.Forall₂ (Kid.Changed deep) kids (moveMain axes after moves) := by
  induction moves generalizing after with
  | nil => exact changed
  | cons move rest ih =>
      obtain ⟨here, later⟩ := List.forall_mem_cons.1 takes
      rw [moveMain_cons]
      refine ih later (changed_modify changed fun kid last found first => ?_)
      exact first.withFrame (here kid found) _

namespace Line

theorem place_changed (renewing : ∀ kid ∈ kids, kid.Renewing deep resolve) (container : Container)
    {filled : FilledLine} (takes : ∀ item ∈ filled.items, item.Takes kids)
    (changed : List.Forall₂ (Kid.Changed deep) kids after) :
    Run.Ensures (fun a => List.Forall₂ (Kid.Changed deep) kids a.2 ∧
      ∀ item ∈ a.1.items, item.Takes kids) (place container filled after) := by
  simp only [place]
  have flexed (line : Line) : ∀ item ∈ (line.flex filled.items container.mainSpace
      container.mainGap).2, item.Takes kids :=
    Item.takes_of_children (map_child_flex line filled.items _ _) takes
  refine Run.ensures_bind (Item.giveMainSizes_changed renewing _ (flexed _) changed) ?_
  rintro a ⟨changed, listed⟩
  refine Run.ensures_pure ⟨moveMain_changed _ (fun move member => ?_) changed, flexed _⟩
  obtain ⟨entry, among, same⟩ := List.mem_map.1 (List.of_mem_zip member).1
  exact same ▸ listed entry among

theorem placeAll_changed (renewing : ∀ kid ∈ kids, kid.Renewing deep resolve)
    (container : Container) (index : Nat) {lines : List FilledLine}
    (takes : ∀ item ∈ lines.flatMap FilledLine.items, item.Takes kids)
    (changed : List.Forall₂ (Kid.Changed deep) kids after) :
    Run.Ensures (fun a => List.Forall₂ (Kid.Changed deep) kids a.2 ∧
      ∀ item ∈ a.1.flatMap FilledLine.items, item.Takes kids)
      (placeAll container index lines after) := by
  induction lines generalizing index after with
  | nil => exact Run.ensures_pure ⟨changed, fun _ member => absurd member List.not_mem_nil⟩
  | cons filled rest ih =>
      rw [List.flatMap_cons] at takes
      obtain ⟨here, later⟩ := List.forall_mem_append.1 takes
      rw [placeAll]
      have numbered : ∀ item ∈ filled.items.map fun item => { item with line := index },
          item.Takes kids := List.forall_mem_map.2 here
      refine Run.ensures_bind (place_changed renewing container numbered changed) ?_
      rintro a ⟨changed, first⟩
      refine Run.ensures_bind (ih (index + 1) later changed) ?_
      rintro b ⟨changed, rests⟩
      refine Run.ensures_pure ⟨changed, ?_⟩
      rw [List.flatMap_cons]
      exact List.forall_mem_append.2 ⟨first, rests⟩

end Line

namespace Container

theorem alignAll_changed (renewing : ∀ kid ∈ kids, kid.Renewing deep resolve)
    (container : Container) {entries : List (Line × Item)}
    (takes : ∀ entry ∈ entries, entry.2.Takes kids)
    (changed : List.Forall₂ (Kid.Changed deep) kids after) :
    Run.Ensures (List.Forall₂ (Kid.Changed deep) kids)
      (alignAll resolve container entries after) := by
  induction entries generalizing after with
  | nil => exact Run.ensures_pure changed
  | cons entry rest ih =>
      obtain ⟨here, later⟩ := List.forall_mem_cons.1 takes
      rw [alignAll]
      split
      · exact ih later changed
      · next last found =>
          exact Run.ensures_bind (changed_step renewing changed here found
            fun kid first participates renewing =>
              first.alignKid participates renewing container entry.1 entry.2)
            fun new changed => ih later changed

/-- **A flex container changes what the next layout makes anew.** -/
theorem layOut_changed (renewing : ∀ kid ∈ kids, kid.Renewing deep resolve) (style : Style)
    (frame : Frame) (available : Int) :
    Run.Ensures (fun result => ∃ after, List.Forall₂ (Kid.Changed deep) kids after ∧
        result.children = after.map Kid.fragment)
      (layOut resolve style frame kids available) := by
  have flows : Run.Ensures (fun flow => List.Forall₂ (Kid.Changed deep) kids flow.kids ∧
      ∀ item ∈ flow.lines.flatMap FilledLine.items, item.Takes kids)
      (flow resolve style frame kids available) := by
    refine Run.ensures_bind ((Item.measureAll_changed _ 0 0 renewing).and
      (Item.measureAll_takes _ kids)) ?_
    rintro ⟨items, sized⟩ ⟨changed, takes⟩
    have broken : ∀ item ∈ (Line.breakAll (prepare resolve style frame available).breaking
        (Item.sortByOrder items)).flatMap FilledLine.items, item.Takes kids := by
      rw [Line.items_flatMap_breakAll]
      exact fun item member => takes item ((Item.sortByOrder_perm items).mem_iff.1 member)
    exact Run.ensures_bind (Line.placeAll_changed renewing _ 0 broken changed) fun b placed =>
      Run.ensures_pure placed
  refine Run.ensures_bind flows fun flow ⟨changed, takes⟩ => ?_
  refine Run.ensures_bind (alignAll_changed renewing flow.container ?_ changed) ?_
  · intro entry member
    obtain ⟨filled, among, inside⟩ := List.mem_flatMap.1 member
    obtain ⟨item, there, rfl⟩ := List.mem_map.1 inside
    refine takes item ?_
    rw [← flatMap_items_spreadLines flow.container flow.crossSize flow.lines]
    exact List.mem_flatMap.2 ⟨filled, among, there⟩
  · exact fun after changed => Run.ensures_pure ⟨after, changed, rfl⟩

end Container

end

/-! ## All boxes -/

/-- Children of a flex box that were changed so have geometry made anew. -/
theorem anew_of_changed {deep : Bool} {env : Environment} {boxes : List Box}
    {fragments : List Fragment} {after : List Kid}
    (changed : List.Forall₂ (Kid.Changed deep) (Kid.ofBoxes env boxes fragments) after) :
    Anew deep true boxes fragments (after.map Kid.fragment) := by
  induction boxes generalizing fragments after with
  | nil => trivial
  | cons box rest ih =>
      rw [Kid.ofBoxes_cons] at changed
      cases changed with
      | cons first later => exact ⟨first.fragment, ih later⟩

theorem anew_of_left {deep : Bool} (env : Environment) (shallow : deep = false) (boxes : List Box)
    (fragments : List Fragment) :
    Anew deep false boxes fragments ((Kid.ofBoxes env boxes fragments).map Kid.fragment) := by
  subst shallow
  induction boxes generalizing fragments with
  | nil => trivial
  | cons box rest ih =>
      rw [Kid.ofBoxes_cons]
      exact ⟨rfl, ih fragments.tail⟩

theorem anew_of_stacked {deep : Bool} {env : Environment} (laid : deep = true) {boxes : List Box}
    {fragments after : List Fragment}
    (stacked : List.Forall₂ (fun kid laid =>
      kid.box.Renewed deep kid.fragment.children laid.children) (Kid.ofBoxes env boxes fragments)
      after) : Anew deep false boxes fragments after := by
  subst laid
  induction boxes generalizing fragments after with
  | nil => trivial
  | cons box rest ih =>
      rw [Kid.ofBoxes_cons] at stacked
      cases stacked with
      | cons first later => exact ⟨first, ih later⟩

namespace Host

theorem stackKids_renewed {deep : Bool} (resolve : Resolver) (left width cursor : Int)
    {kids : List Kid} (each : ∀ kid ∈ kids, ∀ fragment width, Run.Ensures
      (fun laid => kid.box.Renewed deep fragment.children laid.children)
      (kid.layOut fragment width)) :
    Run.Ensures (fun a => List.Forall₂ (fun kid laid =>
        kid.box.Renewed deep kid.fragment.children laid.children) kids a.1)
      (stackKids resolve left width cursor kids) := by
  induction kids generalizing cursor with
  | nil => exact Run.ensures_pure .nil
  | cons kid rest ih =>
      obtain ⟨here, later⟩ := List.forall_mem_cons.1 each
      rw [stackKids]
      refine Run.ensures_bind (Run.ensures_mapFailure (here _ _)) fun laid first => ?_
      refine Run.ensures_bind (ih _ later) fun b rests => ?_
      exact Run.ensures_pure (.cons first rests)

/-- A host that lays out the children of a box makes their geometry anew, and another
leaves it as it is. -/
theorem layOutContents_anew (host : Host) (kind : BoxKind) (available : Option Int) (frame : Frame)
    (boxes : List Box) (fragments : List Fragment)
    (each : ∀ box ∈ boxes, ∀ fragment width, Run.Ensures
      (fun laid => box.Renewed host.deep fragment.children laid.children)
      (box.layOut host.environment fragment width)) :
    Run.Ensures (fun laid => Anew host.deep false boxes fragments laid.children)
      (host.layOutContents kind available frame
        (Kid.ofBoxes host.environment boxes fragments)) := by
  simp only [layOutContents]
  refine Run.ensures_bind (Run.ensures_true _) fun position _ => ?_
  split
  · intro log after laid done
    simp at done
  · cases conduct : host.conduct with
    | noop =>
        refine Run.ensures_pure (anew_of_left host.environment ?_ boxes fragments)
        rw [deep, conduct]
        rfl
    | leaf =>
        refine Run.ensures_pure (anew_of_left host.environment ?_ boxes fragments)
        rw [deep, conduct]
        rfl
    | stack =>
        have stacked := stackKids_renewed host.resolve frame.padding.left
          ((frame.width <|> available).getD 0) frame.padding.top
          fun kid (member : kid ∈ Kid.ofBoxes host.environment boxes fragments) => by
            rw [Kid.layOut_of_mem_ofBoxes member]
            exact each kid.box (Kid.box_mem_of_mem_ofBoxes member)
        refine Run.ensures_bind stacked fun a laid => Run.ensures_pure (anew_of_stacked ?_ laid)
        rw [deep, conduct]
        rfl

end Host

/-- A flex box changes of its children what the next layout makes anew, if each of them
does. -/
theorem Box.layOutFlex_anew_of (host : Host) (box : Box)
    (spares : ∀ child ∈ box.children, child.sparesGenerated = true)
    (each : ∀ child ∈ box.children, ∀ fragment width, Run.Ensures
      (fun laid => child.Renewed host.deep fragment.children laid.children)
      (child.layOut host.environment fragment width)) (fragment : Fragment) (available : Int) :
    Run.Ensures (fun laid => Anew host.deep true box.children fragment.children laid.children)
      (box.layOutFlex host.environment fragment available) := by
  have renewing : ∀ kid ∈ Kid.ofBoxes host.environment box.children fragment.children,
      kid.Renewing host.deep host.environment.resolve := by
    intro kid member
    have among := Kid.box_mem_of_mem_ofBoxes member
    refine ⟨?_, Slack.spread_renewed _ _ _ (spares kid.box among)⟩
    rw [Kid.layOut_of_mem_ofBoxes member]
    exact each kid.box among
  refine (Container.layOut_changed renewing box.style fragment.frame available).mono ?_
  rintro laid ⟨after, changed, same⟩
  rw [same]
  exact anew_of_changed changed

mutual

/-- **Laying out a box changes what the next layout makes anew.** -/
theorem Box.layOut_renewed (host : Host) (box : Box) (spares : box.sparesGenerated = true)
    (fragment : Fragment) (width : Int) :
    Run.Ensures (fun laid => box.Renewed host.deep fragment.children laid.children)
      (box.layOut host.environment fragment width) := by
  obtain ⟨kind, style, generated, least, most, boxes⟩ := box
  have within : ∀ box ∈ boxes, box.sparesGenerated = true := spares_of_mem spares
  have each := Box.layOut_renewed_all host boxes within
  by_cases flex : kind = .flex
  · subst flex
    rw [Box.layOut_of_flex _ _ _ _ rfl]
    exact Box.layOutFlex_anew_of host ⟨.flex, style, generated, least, most, boxes⟩ within each
      fragment width
  · rw [Box.layOut_of_not_flex _ _ _ _ flex]
    have aside : kind.isFlex = false := by simpa [BoxKind.isFlex] using flex
    refine Run.ensures_mapFailure ((host.layOutContents_anew kind _ fragment.frame boxes
      fragment.children each).mono fun laid anew => ?_)
    show Anew host.deep kind.isFlex boxes _ _
    rwa [aside]

theorem Box.layOut_renewed_all (host : Host) (boxes : List Box)
    (spares : ∀ box ∈ boxes, box.sparesGenerated = true) :
    ∀ box ∈ boxes, ∀ fragment width, Run.Ensures
      (fun laid => box.Renewed host.deep fragment.children laid.children)
      (box.layOut host.environment fragment width) := by
  match boxes with
  | [] => exact fun _ member => absurd member List.not_mem_nil
  | box :: boxes =>
      obtain ⟨here, later⟩ := List.forall_mem_cons.1 spares
      exact List.forall_mem_cons.2 ⟨Box.layOut_renewed host box here,
        Box.layOut_renewed_all host boxes later⟩

end

end FlexLayout
