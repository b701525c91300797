/-
# FlexLayout.Proofs.Restacking.Entries -- a column that is stacked already

Late height is handed out over the children in stacking order (`inStackOrder`).  These
are the items in flow in layout order, as far as the items of a line stand for all
children that take part (`Line.Lists`, `inStackOrder_eq`).

A stack whose children cannot grow and stand where a walk put them does not change:
stacking them again gives every child the coordinate that it has (`stack_walked`), and
writing back what is there already changes no child (`writeBack_same`).
-/
import FlexLayout.Proofs.Tiling.Placing

namespace FlexLayout

set_option autoImplicit false

namespace Item

/-- The item comes before another in layout order, by the positions of the children. -/
def Before (a b : Item) : Prop := a.order < b.order ∨ a.order = b.order ∧ a.child < b.child

/-- The item stands for a box. -/
structure Names (item : Item) (box : Box) : Prop where
  participates : box.participates = true
  outOfFlow : item.outOfFlow = box.outOfFlow
  order : item.order = box.style.order

end Item

namespace Slack

/-! ## Stacking order -/

theorem mem_entriesFrom {child : Nat} {boxes : List Box} {frames : List Frame} {entry : Entry} :
    entry ∈ entriesFrom child boxes frames ↔
      ∃ k, entry.child = child + k ∧ boxes[k]? = some entry.box ∧ frames[k]? = some entry.frame ∧
        entry.box.participates = true ∧ entry.box.outOfFlow = false := by
  induction boxes generalizing child frames with
  | nil => simp [entriesFrom]
  | cons box boxes ih =>
      cases frames with
      | nil => simp [entriesFrom]
      | cons frame frames =>
          have later : entry ∈ entriesFrom (child + 1) boxes frames ↔
              ∃ k, entry.child = child + (k + 1) ∧ boxes[k]? = some entry.box ∧
                frames[k]? = some entry.frame ∧ entry.box.participates = true ∧
                entry.box.outOfFlow = false := by
            simp only [ih, Nat.add_assoc, Nat.add_comm 1]
          have here : (∃ k, entry.child = child + k ∧ (box :: boxes)[k]? = some entry.box ∧
              (frame :: frames)[k]? = some entry.frame ∧ entry.box.participates = true ∧
                entry.box.outOfFlow = false) ↔
              (entry = ⟨child, box, frame⟩ ∧ box.participates = true ∧ box.outOfFlow = false) ∨
                entry ∈ entriesFrom (child + 1) boxes frames := by
            rw [later]
            constructor
            · rintro ⟨k, position, found, found', takes⟩
              cases k with
              | zero =>
                  obtain rfl : box = entry.box := Option.some.inj found
                  obtain rfl : frame = entry.frame := Option.some.inj found'
                  obtain rfl : entry.child = child := position
                  exact .inl ⟨rfl, takes⟩
              | succ k => exact .inr ⟨k, position, found, found', takes⟩
            · rintro (⟨rfl, takes⟩ | ⟨k, position, found, found', takes⟩)
              · exact ⟨0, rfl, rfl, rfl, takes⟩
              · exact ⟨k + 1, position, found, found', takes⟩
          rw [here, entriesFrom]
          cases takes : box.participates && !box.outOfFlow with
          | true =>
              rw [if_pos rfl, List.mem_cons]
              simp only [Bool.and_eq_true, Bool.not_eq_true'] at takes
              simp [takes]
          | false =>
              rw [if_neg Bool.false_ne_true]
              have none : ¬(box.participates = true ∧ box.outOfFlow = false) := by
                simpa using takes
              simp [none]

theorem entriesFrom_ordered (child : Nat) (boxes : List Box) (frames : List Frame) :
    (entriesFrom child boxes frames).Pairwise fun a b => a.child < b.child := by
  induction boxes generalizing child frames with
  | nil => exact .nil
  | cons box boxes ih =>
      cases frames with
      | nil => exact .nil
      | cons frame frames =>
          rw [entriesFrom]
          split
          · refine List.pairwise_cons.2 ⟨fun entry member => ?_, ih _ _⟩
            obtain ⟨k, position, -⟩ := mem_entriesFrom.1 member
            show child < entry.child
            omega
          · exact ih _ _

namespace Entry

theorem precedes_trans (a b c : Entry) (ab : a.precedes b) (bc : b.precedes c) : a.precedes c := by
  simp only [precedes, Bool.or_eq_true, Bool.and_eq_true, decide_eq_true_eq, beq_iff_eq] at *
  omega

theorem precedes_total (a b : Entry) : (a.precedes b || b.precedes a) = true := by
  simp only [precedes, Bool.or_eq_true, Bool.and_eq_true, decide_eq_true_eq, beq_iff_eq]
  omega

theorem child_eq_of_precedes {a b : Entry} (ab : a.precedes b) (ba : b.precedes a) :
    a.child = b.child := by
  simp only [precedes, Bool.or_eq_true, Bool.and_eq_true, decide_eq_true_eq, beq_iff_eq] at ab ba
  omega

def Precedes (a b : Entry) : Prop := a.precedes b = true

instance : DecidableRel Precedes := fun a b => inferInstanceAs (Decidable (a.precedes b = true))

instance : IsTrans Entry Precedes := ⟨precedes_trans⟩

instance : Std.Total Precedes :=
  ⟨fun a b => by simpa only [Precedes, Bool.or_eq_true] using precedes_total a b⟩

end Entry

/-- Entries of different children have one stacking order. -/
theorem eq_inStackOrder {boxes : List Box} {frames : List Frame} {stacked : List Entry}
    (perm : stacked.Perm (entriesFrom 0 boxes frames))
    (sound : stacked.Pairwise fun a b => a.precedes b) : inStackOrder boxes frames = stacked := by
  have sorted := List.pairwise_mergeSort Entry.precedes_trans Entry.precedes_total
    (entriesFrom 0 boxes frames)
  have among := List.mergeSort_perm (entriesFrom 0 boxes frames) Entry.precedes
  have apart : (entriesFrom 0 boxes frames).Pairwise fun a b => a.child ≠ b.child :=
    (entriesFrom_ordered 0 boxes frames).imp fun lt => Nat.ne_of_lt lt
  have : Std.Symm fun a b : Entry => a.child ≠ b.child := ⟨fun _ _ ne => ne.symm⟩
  refine (among.trans perm.symm).eq_of_pairwise ?_ sorted sound
  intro a b first second ab ba
  by_contra ne
  exact apart.forall (among.mem_iff.1 first) (perm.mem_iff.1 second) ne
    (Entry.child_eq_of_precedes ab ba)

/-- Stacking order by insertion, which computes. -/
theorem inStackOrder_eq_insertionSort (boxes : List Box) (frames : List Frame) :
    inStackOrder boxes frames = (entriesFrom 0 boxes frames).insertionSort Entry.Precedes :=
  eq_inStackOrder (List.perm_insertionSort Entry.Precedes _)
    (List.pairwise_insertionSort Entry.Precedes _)

end Slack

/-- The items of a line stand for the children that take part, in layout order. -/
structure Line.Lists (boxes : List Box) (items : List Item) : Prop where
  ordered : items.Pairwise Item.Before
  names : ∀ item ∈ items, ∃ box, boxes[item.child]? = some box ∧ item.Names box
  all : ∀ (i : Nat) (box : Box), boxes[i]? = some box → box.participates = true →
    ∃ item ∈ items, item.child = i

/-- Which children are listed, and in which order, does not depend on how items are
flexed. -/
theorem Line.Lists.congr {boxes : List Box} {items others : List Item} (lists : Lists boxes items)
    (same : List.Forall₂ (fun item other => other.child = item.child ∧ other.order = item.order ∧
      other.outOfFlow = item.outOfFlow) items others) : Lists boxes others where
  ordered := by
    let key (item : Item) : Int × Nat := (item.order, item.child)
    have keys : others.map key = items.map key := by
      rw [← List.forall₂_eq_eq_eq, List.forall₂_map_left_iff, List.forall₂_map_right_iff]
      exact same.flip.imp fun other item same => congrArg₂ Prod.mk same.2.1 same.1
    have ordered : (items.map key).Pairwise fun a b => a.1 < b.1 ∨ a.1 = b.1 ∧ a.2 < b.2 :=
      List.pairwise_map.2 lists.ordered
    rwa [← keys, List.pairwise_map] at ordered
  names other member := by
    obtain ⟨item, among, child, order, flow⟩ := exists_of_mem_right same member
    obtain ⟨box, found, names⟩ := lists.names item among
    exact ⟨box, child ▸ found, names.participates, flow.trans names.outOfFlow,
      order.trans names.order⟩
  all i box found participates := by
    obtain ⟨item, member, at_⟩ := lists.all i box found participates
    obtain ⟨other, among, child, -⟩ := exists_of_mem_right same.flip member
    exact ⟨other, among, child.trans at_⟩

def Item.entryIn (boxes : List Box) (fragments : List Fragment) (item : Item) : Slack.Entry where
  child := item.child
  box := boxes[item.child]?.getD {}
  frame := item.frameIn fragments

namespace Line.Lists

variable {boxes : List Box} {fragments : List Fragment} {items : List Item}

theorem nodup (lists : Lists boxes items) : (items.map Item.child).Nodup := by
  refine List.pairwise_map.2 (lists.ordered.imp_of_mem fun {a b} first second before same => ?_)
  obtain ⟨box, at_, names⟩ := lists.names a first
  obtain ⟨box', at', names'⟩ := lists.names b second
  obtain rfl : box = box' := Option.some.inj (at_.symm.trans (same ▸ at'))
  have order := names.order.trans names'.order.symm
  simp only [Item.Before] at before
  omega

variable (lists : Lists boxes items) (known : ∀ item ∈ items, (fragments[item.child]?).isSome)

include lists

theorem nodup_entries :
    ((items.filter fun item => !item.outOfFlow).map (Item.entryIn boxes fragments)).Nodup := by
  refine List.Nodup.of_map Slack.Entry.child ?_
  rw [List.map_map]
  exact lists.nodup.sublist (List.filter_sublist.map Item.child)

include known

theorem exists_entryIn {item : Item} (member : item ∈ items) :
    ∃ box fragment, boxes[item.child]? = some box ∧ fragments[item.child]? = some fragment ∧
      item.Names box ∧ item.entryIn boxes fragments = ⟨item.child, box, fragment.frame⟩ := by
  obtain ⟨box, atBox, names⟩ := lists.names item member
  obtain ⟨fragment, atFragment⟩ := Option.isSome_iff_exists.1 (known item member)
  refine ⟨box, fragment, atBox, atFragment, names, ?_⟩
  simp only [Item.entryIn, Item.frameIn]
  rw [atBox, atFragment]
  rfl

theorem mem_entries {entry : Slack.Entry} :
    entry ∈ (items.filter fun item => !item.outOfFlow).map (Item.entryIn boxes fragments) ↔
      entry ∈ Slack.entriesFrom 0 boxes (fragments.map Fragment.frame) := by
  rw [Slack.mem_entriesFrom, List.mem_map]
  constructor
  · rintro ⟨item, member, rfl⟩
    obtain ⟨inside, flow⟩ := List.mem_filter.1 member
    obtain ⟨box, fragment, atBox, atFragment, names, same⟩ := lists.exists_entryIn known inside
    rw [same]
    refine ⟨item.child, (Nat.zero_add _).symm, atBox, ?_, names.participates, ?_⟩
    · rw [List.getElem?_map, atFragment]
      rfl
    · rw [← names.outOfFlow]
      simpa using flow
  · rintro ⟨k, position, atBox, atFrame, participates, flow⟩
    rw [Nat.zero_add] at position
    subst position
    obtain ⟨item, inside, child⟩ := lists.all _ _ atBox participates
    obtain ⟨box, fragment, atBox', atFragment, names, same⟩ := lists.exists_entryIn known inside
    rw [child] at atBox' atFragment same
    obtain rfl : entry.box = box := Option.some.inj (atBox.symm.trans atBox')
    rw [List.getElem?_map, atFragment] at atFrame
    refine ⟨item, List.mem_filter.2 ⟨inside, ?_⟩, ?_⟩
    · rw [names.outOfFlow, flow]
      rfl
    · rw [same, Option.some.inj atFrame]

theorem precedes_entries :
    ((items.filter fun item => !item.outOfFlow).map (Item.entryIn boxes fragments)).Pairwise
      fun a b => a.precedes b := by
  refine List.pairwise_map.2 ((lists.ordered.filter _).imp_of_mem fun {a b} first second before => ?_)
  obtain ⟨box, fragment, -, -, names, same⟩ :=
    lists.exists_entryIn known (List.mem_of_mem_filter first)
  obtain ⟨box', fragment', -, -, names', same'⟩ :=
    lists.exists_entryIn known (List.mem_of_mem_filter second)
  rw [same, same']
  have order := names.order
  have order' := names'.order
  simp only [Item.Before] at before
  simp only [Slack.Entry.precedes, Bool.or_eq_true, Bool.and_eq_true, decide_eq_true_eq, beq_iff_eq]
  omega

end Line.Lists

namespace Slack

variable {boxes : List Box} {fragments : List Fragment} {items : List Item}

/-- **The stacking order is the layout order of the items in flow.** -/
theorem inStackOrder_eq (lists : Line.Lists boxes items)
    (known : ∀ item ∈ items, (fragments[item.child]?).isSome) :
    inStackOrder boxes (fragments.map Fragment.frame) =
      (items.filter fun item => !item.outOfFlow).map (Item.entryIn boxes fragments) := by
  have apart : (entriesFrom 0 boxes (fragments.map Fragment.frame)).Nodup := by
    refine (entriesFrom_ordered 0 _ _).imp fun {a b} before same => ?_
    subst same
    exact Nat.lt_irrefl _ before
  exact eq_inStackOrder ((List.perm_ext_iff_of_nodup lists.nodup_entries apart).2 fun _ =>
    lists.mem_entries known) (lists.precedes_entries known)

end Slack

/-! ## Stacking again -/

namespace MainTrack

variable {track : MainTrack} {axes : Axes} {walk : MainWalk}

theorem Walked.filter {items : List Item} {frames : Item → Frame}
    (walked : track.Walked axes walk (items.map fun item => (item, frames item))) :
    track.Walked axes walk
      ((items.filter fun item => !item.outOfFlow).map fun item => (item, frames item)) := by
  induction items generalizing walk with
  | nil => rfl
  | cons item rest ih =>
      obtain ⟨here, later⟩ := walked_cons.1 walked
      rw [List.filter_cons]
      cases out : item.outOfFlow with
      | true =>
          simp only [step, out, if_true] at later
          exact ih later
      | false => exact walked_cons.2 ⟨here, ih later⟩

theorem spaceAfter_of_plain (plain : track.spacing = {}) {placed : Nat}
    (more : placed + 1 < track.inFlow) : track.spaceAfter (placed + 1) = track.gap := by
  rw [spaceAfter_of_lt more, plain]
  simp [Pixel.bonus_eq]

end MainTrack

namespace Slack

variable {track : MainTrack} {axes : Axes} {walk : MainWalk}

/-- **Stacking children again that a walk put in their places moves none of them.** -/
theorem stack_walked (column : axes.horizontal = false) (s : Stacking)
    (reversed : s.reversed = track.reversed) (gap : s.gap = track.gap)
    (share : s.share = track.autoShare) (plain : track.spacing = {}) {items : List Item}
    (flow : ∀ item ∈ items, item.outOfFlow = false) (count : walk.placed + items.length ≤ track.inFlow)
    (entry : Item → Entry)
    (walked : track.Walked axes walk (items.map fun item => (item, (entry item).frame))) :
    stack s walk.pos walk.remainder (items.map entry) = items.map entry := by
  induction items generalizing walk with
  | nil => rfl
  | cons item rest ih =>
      obtain ⟨inFlow, flow⟩ := List.forall_mem_cons.1 flow
      obtain ⟨here, later⟩ := MainTrack.walked_cons.1 walked
      rw [List.length_cons] at count
      -- What the walk has taken before this item is what stacking has taken.
      have rests := ih flow (by
        simp only [MainTrack.step, inFlow, Bool.false_eq_true, if_false]
        omega) later
      simp only [MainTrack.step, inFlow, Bool.false_eq_true, if_false, Axes.lowMain_column column,
        Axes.highMain_column column, Axes.mainOuter_column column, Axes.mainCoordinate_column column,
        MainTrack.marginShare, MainTrack.afterMargin] at here rests
      rw [List.map_cons, stack]
      simp only [reversed, gap, share]
      refine congrArg₂ List.cons ?_ ?_
      · have stays : ∀ y, y = (entry item).frame.y → (entry item).settled y = entry item := by
          rintro y rfl
          rfl
        apply stays
        rw [← here, Sides.get]
        omega
      · cases rest with
        | nil => rfl
        | cons next rest =>
            rw [List.length_cons] at count
            rwa [MainTrack.spaceAfter_of_plain plain (by omega)] at rests

end Slack

end FlexLayout
