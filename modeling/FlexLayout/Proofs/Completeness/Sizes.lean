/-
# FlexLayout.Proofs.Completeness.Sizes -- children whose sizes are known

A box is complete when its width and its height are known and not negative, and in a flex
box those of every flex item as well, down to the last flex box that is an item of an
item (`Box.Complete`).

Late height keeps a box complete, since it takes no height away (`Slack.spread_complete`).
A child that is given its main size with the width known becomes complete
(`Item.giveMainSize_complete`) and stays so when it is aligned
(`Container.alignKid_complete`), as long as laying it out keeps what is known
(`Completing`).
-/
import FlexLayout.Proofs.Restacking.Entries

namespace FlexLayout

set_option autoImplicit false

structure Frame.Complete (frame : Frame) : Prop where
  width : ∃ size, frame.width = some size ∧ 0 ≤ size
  height : ∃ size, frame.height = some size ∧ 0 ≤ size

def Unsigned (size : Option Int) : Prop := ∀ pixels, size = some pixels → 0 ≤ pixels

namespace Frame.Complete

theorem of_sizes {frame after : Frame} (complete : frame.Complete) (width : after.width = frame.width)
    (height : after.height = frame.height) : after.Complete :=
  ⟨width ▸ complete.width, height ▸ complete.height⟩

theorem unsigned {frame : Frame} (complete : frame.Complete) : Unsigned frame.height := by
  intro pixels known
  obtain ⟨size, same, nonneg⟩ := complete.height
  exact Option.some.inj (same.symm.trans known) ▸ nonneg

end Frame.Complete

mutual

/-- The sizes of a box are known, and in a flex box those of its items. -/
def Box.Complete : Box → Fragment → Prop
  | ⟨kind, _, _, _, _, boxes⟩, fragment =>
      fragment.frame.Complete ∧ (kind.isFlex = true → ItemsComplete boxes fragment.children)

/-- Every child of a flex box that takes part is complete. -/
def ItemsComplete : List Box → List Fragment → Prop
  | [], _ => True
  | box :: boxes, fragments =>
      (box.participates = true → ∃ fragment, fragments.head? = some fragment ∧ box.Complete fragment) ∧
        ItemsComplete boxes fragments.tail

end

theorem Box.complete_iff (box : Box) (fragment : Fragment) :
    box.Complete fragment ↔ fragment.frame.Complete ∧
      (box.kind.isFlex = true → ItemsComplete box.children fragment.children) := by
  cases box
  rw [Box.Complete]

theorem itemsComplete_iff {boxes : List Box} {fragments : List Fragment} :
    ItemsComplete boxes fragments ↔ ∀ (i : Nat) (box : Box), boxes[i]? = some box →
      box.participates = true → ∃ fragment, fragments[i]? = some fragment ∧ box.Complete fragment := by
  induction boxes generalizing fragments with
  | nil => simp [ItemsComplete]
  | cons box rest ih =>
      rw [ItemsComplete, ih]
      constructor
      · rintro ⟨here, later⟩ i other found participates
        cases i with
        | zero =>
            obtain rfl : box = other := Option.some.inj found
            rw [← List.head?_eq_getElem?]
            exact here participates
        | succ i =>
            rw [← List.getElem?_tail]
            exact later i other found participates
      · intro all
        refine ⟨fun participates => ?_, fun i other found participates => ?_⟩
        · rw [List.head?_eq_getElem?]
          exact all 0 box rfl participates
        · rw [List.getElem?_tail]
          exact all (i + 1) other found participates

theorem Box.Complete.withFrame {box : Box} {fragment : Fragment} (complete : box.Complete fragment)
    {frame : Frame} (sizes : frame.Complete) : box.Complete { fragment with frame := frame } := by
  rw [complete_iff] at complete ⊢
  exact ⟨sizes, complete.2⟩

theorem itemsComplete_modify {boxes : List Box} {fragments : List Fragment}
    (complete : ItemsComplete boxes fragments) (i : Nat) {frame : Frame} (sizes : frame.Complete) :
    ItemsComplete boxes
      (fragments.modify i fun fragment => { fragment with frame := frame }) := by
  rw [itemsComplete_iff] at complete ⊢
  intro j box found participates
  obtain ⟨fragment, there, whole⟩ := complete j box found participates
  by_cases here : i = j
  · refine ⟨{ fragment with frame := frame }, ?_, whole.withFrame sizes⟩
    rw [here, List.getElem?_modify_eq, there]
    rfl
  · exact ⟨fragment, (List.getElem?_modify_ne _ _ here).trans there, whole⟩

/-! ## Late height -/

namespace Slack

variable {resolve : Resolver}

theorem Entry.offer_complete {entry : Entry} (complete : entry.frame.Complete) (share : Int) :
    (entry.offer resolve share).frame.Complete := by
  obtain ⟨height, known, nonneg⟩ := complete.height
  refine ⟨complete.width, _, rfl, ?_⟩
  rw [known, Option.getD_some]
  exact Int.le_trans nonneg (Int.le_max_right _ _)

theorem growEntries_complete (resolve : Resolver) {entries : List Entry}
    (complete : ∀ entry ∈ entries, entry.frame.Complete) (extra : Int) :
    ∀ entry ∈ growEntries resolve extra entries, entry.frame.Complete := by
  simp only [growEntries]
  split
  · exact complete
  · intro entry member
    obtain ⟨source, among, came⟩ := exists_of_mem_right
      (Share.forall₂_deal (fun _ => True) (fun _ _ => True) (fun _ _ _ => ⟨trivial, trivial⟩)
        trivial entries) member
    rcases came with ⟨-, same⟩ | ⟨-, share, -, rfl⟩
    · exact same ▸ complete source among
    · exact Entry.offer_complete (complete source among) share

theorem stack_complete (s : Stacking) (pos remainder : Int) {entries : List Entry}
    (complete : ∀ entry ∈ entries, entry.frame.Complete) :
    ∀ entry ∈ stack s pos remainder entries, entry.frame.Complete := by
  induction entries generalizing pos remainder with
  | nil => exact complete
  | cons entry rest ih =>
      obtain ⟨here, later⟩ := List.forall_mem_cons.1 complete
      rw [stack]
      exact List.forall_mem_cons.2 ⟨here.of_sizes rfl rfl, ih _ _ later⟩

theorem settle_complete (style : Style) (container : Frame) (height : Int) {entries : List Entry}
    (complete : ∀ entry ∈ entries, entry.frame.Complete) :
    ∀ entry ∈ settle resolve style container height entries, entry.frame.Complete := by
  simp only [settle]
  split
  · exact fun _ member => absurd member List.not_mem_nil
  · have grown := growEntries_complete resolve complete
      (extra height (style.gaps resolve container).1 entries)
    split
    · exact grown
    · exact stack_complete _ _ _ grown

theorem writeBack_complete {boxes : List Box} {fragments : List Fragment} {entries : List Entry}
    (items : ItemsComplete boxes fragments) (complete : ∀ entry ∈ entries, entry.frame.Complete) :
    ItemsComplete boxes (writeBack fragments entries) := by
  simp only [writeBack]
  induction entries generalizing fragments with
  | nil => exact items
  | cons entry rest ih =>
      obtain ⟨here, later⟩ := List.forall_mem_cons.1 complete
      exact ih (itemsComplete_modify items entry.child here) later

theorem spreadHere_complete (style : Style) {boxes : List Box} {fragment : Fragment}
    (items : ItemsComplete boxes fragment.children) :
    ItemsComplete boxes (spreadHere resolve style boxes fragment) := by
  simp only [spreadHere]
  split
  · exact items
  · refine writeBack_complete items (settle_complete style fragment.frame _ ?_)
    intro entry member
    have listed := (List.mergeSort_perm _ Entry.precedes).mem_iff.1 member
    obtain ⟨k, -, found, there, participates, -⟩ := mem_entriesFrom.1 listed
    obtain ⟨child, found', complete⟩ := itemsComplete_iff.1 items k entry.box found participates
    rw [List.getElem?_map, found', Option.map_some, Option.some.injEq] at there
    exact there ▸ ((Box.complete_iff _ _).1 complete).1

mutual

/-- **Late height keeps a box complete.** -/
theorem spread_complete (resolve : Resolver) (box : Box) {fragment : Fragment}
    (complete : box.Complete fragment) : box.Complete (spread resolve box fragment) := by
  obtain ⟨kind, style, generated, least, most, boxes⟩ := box
  rw [Box.Complete] at complete ⊢
  simp only [spread]
  split
  · exact ⟨complete.1, fun flex =>
      spreadAll_complete resolve boxes (spreadHere_complete style (complete.2 flex))⟩
  · exact complete

theorem spreadAll_complete (resolve : Resolver) (boxes : List Box) {fragments : List Fragment}
    (items : ItemsComplete boxes fragments) :
    ItemsComplete boxes (spreadAll resolve boxes fragments) := by
  match boxes, fragments with
  | [], _ => exact trivial
  | _ :: _, [] => exact items
  | box :: boxes, fragment :: fragments =>
      rw [ItemsComplete] at items
      rw [spreadAll, ItemsComplete]
      refine ⟨fun participates => ?_, spreadAll_complete resolve boxes items.2⟩
      obtain ⟨first, same, complete⟩ := items.1 participates
      obtain rfl : fragment = first := Option.some.inj same
      exact ⟨_, rfl, spread_complete resolve box complete⟩

end

end Slack

/-! ## One child -/

/-- A box as laying it out leaves it: only its height may still be unknown. -/
structure Fragment.Laid (box : Box) (fragment : Fragment) : Prop where
  width : ∃ size, fragment.frame.width = some size ∧ 0 ≤ size
  height : Unsigned fragment.frame.height
  items : box.kind.isFlex = true → ItemsComplete box.children fragment.children

theorem Fragment.Laid.complete {box : Box} {fragment : Fragment} (laid : fragment.Laid box)
    (known : fragment.frame.height.isSome = true) : box.Complete fragment := by
  obtain ⟨size, same⟩ := Option.isSome_iff_exists.1 known
  exact (Box.complete_iff box fragment).2
    ⟨⟨laid.width, size, same, laid.height size same⟩, laid.items⟩

/-- A routine of a box that is given a width lays it out, and keeps a height that is
known. -/
def Completing (box : Box) (run : Fragment → Int → Run Failure Fragment) : Prop :=
  ∀ fragment available, (∃ size, fragment.frame.width = some size ∧ 0 ≤ size) →
    Unsigned fragment.frame.height →
    Run.Ensures (fun laid => laid.Laid box ∧
        (fragment.frame.height.isSome = true → laid.frame.height.isSome = true))
      (run fragment available)

namespace Kid

/-- The child is complete, and laying it out again keeps it so. -/
structure Complete (kid : Kid) : Prop where
  completing : Completing kid.box kid.layOut
  complete : kid.box.Complete kid.fragment

variable {kid : Kid}

theorem Complete.frame (complete : kid.Complete) : kid.frame.Complete :=
  ((Box.complete_iff _ _).1 complete.complete).1

theorem Complete.withFrame (complete : kid.Complete) {frame : Frame}
    (width : frame.width = kid.frame.width) (height : frame.height = kid.frame.height) :
    (kid.withFrame frame).Complete :=
  ⟨complete.completing, complete.complete.withFrame (complete.frame.of_sizes width height)⟩

/-- A child that is laid out with both sizes known becomes complete. -/
theorem layOut_complete (completing : Completing kid.box kid.layOut) {frame : Frame} (sizes : frame.Complete)
    (available : Int) :
    Run.Ensures (fun laid => (kid.withFragment laid).Complete)
      (kid.layOut (kid.withFrame frame).fragment available) := by
  have isSome : frame.height.isSome = true := by
    obtain ⟨size, same, -⟩ := sizes.height
    rw [same]
    rfl
  refine (completing _ available sizes.width sizes.unsigned).mono ?_
  rintro laid ⟨whole, known⟩
  exact ⟨completing, whole.complete (known isSome)⟩

/-- A child whose height is not negative, if it is known.  In a column it is laid out. -/
structure Begun (axes : Axes) (kid : Kid) : Prop where
  completing : Completing kid.box kid.layOut
  height : Unsigned kid.frame.height
  laid : axes.horizontal = false → kid.fragment.Laid kid.box

end Kid

theorem Style.unsigned_contentSize? (style : Style) (resolve : Resolver) (size : Option Length)
    (reference : Option Int) (inset : Int) :
    Unsigned (style.contentSize? resolve size reference inset) := by
  intro pixels known
  simp only [contentSize?, Option.bind_eq_some_iff, Option.map_eq_some_iff] at known
  obtain ⟨_, -, px, -, rfl⟩ := known
  exact style.contentSize_nonneg px inset

theorem Fragment.flowHeight_nonneg (boxes : List Box) (fragment : Fragment) :
    0 ≤ fragment.flowHeight boxes := by
  simp only [flowHeight]
  split
  · exact Int.le_refl 0
  · exact Int.le_max_left _ _

namespace Item

variable {resolve : Resolver} {container : Container}

theorem fittedWidth_nonneg {box : Box} {sized : Frame} (known : Unsigned sized.width) :
    0 ≤ fittedWidth container box sized := by
  simp only [fittedWidth]
  split
  · next width same => exact known width same
  · exact Int.le_max_left _ _

/-- **Measuring begins with the sizes of the style**, and lays out the child of a
column. -/
theorem measure_begun (child index : Nat) {kid : Kid} (completing : Completing kid.box kid.layOut) :
    Run.Ensures (fun a => a.1.child = child ∧ a.2.box = kid.box ∧ a.2.Begun container.axes)
      (measure resolve container child index kid) := by
  have width := kid.box.style.unsigned_contentSize? resolve kid.box.style.width
    (some container.contentWidth)
    (kid.frame.withEdges resolve kid.box.style container.contentWidth).horizontalInset
  have height := kid.box.style.unsigned_contentSize? resolve kid.box.style.height none
    (kid.frame.withEdges resolve kid.box.style container.contentWidth).verticalInset
  simp only [measure]
  cases horizontal : container.axes.horizontal with
  | true =>
      refine Run.ensures_pure ⟨rfl, rfl, completing, height, fun column => ?_⟩
      exact absurd (horizontal.symm.trans column) (by decide)
  | false =>
      refine Run.ensures_bind (completing _ _ ⟨_, rfl, fittedWidth_nonneg width⟩ height) ?_
      rintro laid ⟨whole, -⟩
      exact Run.ensures_pure ⟨rfl, rfl, completing, whole.height, fun _ => whole⟩

/-- **A child that is given its main size is complete.** -/
theorem giveMainSize_complete {axes : Axes} (item : Item) {kid : Kid} (begun : kid.Begun axes) :
    Run.Ensures (fun after => after.box = kid.box ∧ after.Complete) (giveMainSize axes item kid) := by
  simp only [giveMainSize]
  cases horizontal : axes.horizontal with
  | true =>
      refine Run.ensures_bind
        (begun.completing _ _ ⟨_, rfl, Int.le_max_left _ _⟩ begun.height) ?_
      rintro laid ⟨whole, -⟩
      refine Run.ensures_pure ⟨rfl, begun.completing, ?_⟩
      have positive : ∃ size, some (laid.frame.height.getD (laid.flowHeight kid.box.children)) =
          some size ∧ 0 ≤ size := by
        refine ⟨_, rfl, ?_⟩
        cases known : laid.frame.height with
        | none => exact laid.flowHeight_nonneg kid.box.children
        | some height => exact whole.height height known
      exact (Box.complete_iff _ _).2 ⟨⟨whole.width, positive⟩, whole.items⟩
  | false =>
      have laid := begun.laid horizontal
      rw [if_neg Bool.false_ne_true]
      split
      · next same =>
          exact Run.ensures_pure ⟨rfl, begun.completing, laid.complete (by
            rw [show kid.fragment.frame.height = _ from same]; rfl)⟩
      · have sizes : ({ kid.frame with
            height := some (max 0 (item.target - kid.frame.verticalSurround)) } : Frame).Complete :=
          ⟨laid.width, _, rfl, Int.le_max_left _ _⟩
        refine Run.ensures_bind (Kid.layOut_complete begun.completing sizes _) fun laid complete => ?_
        exact Run.ensures_pure ⟨rfl, complete⟩

end Item

namespace Container

variable {container : Container} {kid : Kid}

theorem stretch_complete (resolve : Resolver) (axes : Axes) (item : Item) (lineCross : Int)
    (complete : kid.Complete) :
    Run.Ensures (fun after => after.box = kid.box ∧ after.Complete)
      (stretch resolve axes item lineCross kid) := by
  simp only [stretch]
  split
  · exact Run.ensures_pure ⟨rfl, complete⟩
  · have positive : ∃ size, some (stretchedSize axes item kid.frame lineCross) = some size ∧
        0 ≤ size := ⟨_, rfl, Int.le_max_left _ _⟩
    have sizes : (if axes.horizontal = true then
        { kid.frame with height := some (stretchedSize axes item kid.frame lineCross) }
        else { kid.frame with width := some (stretchedSize axes item kid.frame lineCross) } :
          Frame).Complete := by
      split
      · exact ⟨complete.frame.width, positive⟩
      · exact ⟨positive, complete.frame.height⟩
    refine Run.ensures_bind (Kid.layOut_complete complete.completing sizes _) fun laid whole => ?_
    exact Run.ensures_pure ⟨rfl, complete.completing, Slack.spread_complete resolve _ whole.complete⟩

/-- **Alignment keeps a child complete.** -/
theorem alignKid_complete (resolve : Resolver) (line : Line) (item : Item) (complete : kid.Complete) :
    Run.Ensures (fun after => after.box = kid.box ∧ after.Complete)
      (alignKid resolve container line item kid) := by
  have moved {kid : Kid} (complete : kid.Complete) (startAuto endAuto : Bool) :
      (container.moveCross line startAuto endAuto kid).Complete := by
    refine complete.withFrame ?_ ?_
    · simp only [Axes.moveCross]
      split <;> rfl
    · simp only [Axes.moveCross]
      split <;> rfl
  rw [alignKid_eq]
  split
  · refine Run.ensures_bind (stretch_complete resolve container.axes item line.cross complete) ?_
    rintro laid ⟨box, whole⟩
    exact Run.ensures_pure ⟨box, moved whole _ _⟩
  · exact Run.ensures_pure ⟨rfl, moved complete _ _⟩

end Container

end FlexLayout
