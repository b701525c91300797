/-
# FlexLayout.Proofs.Spreading.Steps -- late height in one column

Each step of handing out late height lifts the children on the stack (`Entry.Lifts`): it
may move one vertically and make it higher, up to its maximum, and that is all it does.
So that is all a column does to its children (`settle_cases`), and writing the stack back
leaves every other child as it is (`spreadHere_step`).

The order of the stack does not depend on what is lifted, so the children that were
stacked are the stack of the result (`inStackOrder_writeBack`).
-/
import FlexLayout.Proofs.LateHeight.Stack

namespace FlexLayout

set_option autoImplicit false

/-- A frame that was moved vertically, or made higher, and is otherwise the same. -/
structure Frame.Lifted (frame after : Frame) : Prop where
  same : after = { frame with y := after.y, height := after.height }
  higher : frame.height.getD 0 ≤ after.height.getD 0

theorem Frame.Lifted.refl (frame : Frame) : frame.Lifted frame := ⟨rfl, Int.le_refl _⟩

theorem Frame.Lifted.trans {frame mid after : Frame} (first : frame.Lifted mid)
    (second : mid.Lifted after) : frame.Lifted after where
  same := by
    rw [second.same, first.same]
  higher := Int.le_trans first.higher second.higher

namespace Slack

variable {resolve : Resolver} {boxes : List Box} {fragments : List Fragment}
  {entries made : List Entry}

/-! ## Entries -/

namespace Entry

/-- What late height makes of a child on the stack: it stays the same child, and its frame
is lifted, but not to a height above both the one it had and its maximum. -/
structure Lifts (resolve : Resolver) (entry after : Entry) : Prop where
  child : after.child = entry.child
  box : after.box = entry.box
  lifted : entry.frame.Lifted after.frame
  most : ∀ limit, entry.maxHeight? resolve = some limit → after.height ≤ max entry.height limit

variable {entry mid after : Entry}

theorem Lifts.refl (resolve : Resolver) (entry : Entry) : entry.Lifts resolve entry :=
  ⟨rfl, rfl, .refl _, fun _ _ => Int.le_max_left _ _⟩

theorem Lifts.settled (lifts : entry.Lifts resolve after) (y : Int) :
    entry.Lifts resolve (after.settled y) where
  child := lifts.child
  box := lifts.box
  lifted := lifts.lifted.trans ⟨rfl, Int.le_refl _⟩
  most := lifts.most

/-- **A child takes no more than its maximum, and gives nothing back.** -/
theorem lifts_offer (entry : Entry) (share : Int) :
    entry.Lifts resolve (entry.offer resolve share) := by
  refine ⟨rfl, rfl, ⟨rfl, Int.le_max_right _ _⟩, fun limit limited => ?_⟩
  simp only [height, offer, limited, Option.getD_some]
  exact Int.max_le.2 ⟨Int.le_trans (Int.min_le_right _ _) (Int.le_max_right _ _),
    Int.le_max_left _ _⟩

theorem height_offer_le {share : Int} (least : -2147483648 ≤ entry.height) (nonneg : 0 ≤ share) :
    (entry.offer resolve share).height ≤ entry.height + share := by
  simp only [height, offer, Option.getD_some] at least ⊢
  generalize entry.frame.height.getD 0 = current at least ⊢
  have taken : Pixel.add current share ≤ current + share := by
    simp only [Pixel.add, Pixel.saturate]
    omega
  generalize Pixel.add current share = wanted at taken ⊢
  cases entry.maxHeight? resolve with
  | none => exact Int.max_le.2 ⟨taken, by omega⟩
  | some limit => exact Int.max_le.2 ⟨Int.le_trans (Int.min_le_left _ _) taken, by omega⟩

end Entry

/-- What lifting the children on a stack does not change of them. -/
theorem map_of_lifts {β : Type} (lifts : List.Forall₂ (Entry.Lifts resolve) entries made)
    (F : Entry → β) (kept : ∀ entry after, entry.Lifts resolve after → F after = F entry) :
    made.map F = entries.map F := by
  rw [← List.forall₂_eq_eq_eq, List.forall₂_map_left_iff, List.forall₂_map_right_iff]
  exact lifts.flip.imp fun after entry lifts => kept entry after lifts

theorem child_eq_of_lifts (lifts : List.Forall₂ (Entry.Lifts resolve) entries made) :
    made.map Entry.child = entries.map Entry.child :=
  map_of_lifts lifts Entry.child fun _ _ lifts => lifts.child

/-! ## One column -/

theorem lifts_growEntries (resolve : Resolver) (extra : Int) (entries : List Entry) :
    List.Forall₂ (Entry.Lifts resolve) entries (growEntries resolve extra entries) := by
  simp only [growEntries]
  split
  · exact List.forall₂_same.2 fun entry _ => .refl resolve entry
  · refine (Share.forall₂_deal (fun _ => True) (fun _ _ => True)
      (fun _ _ _ => ⟨trivial, trivial⟩) trivial entries).imp fun entry after step => ?_
    rcases step with ⟨-, rfl⟩ | ⟨-, share, -, rfl⟩
    · exact .refl resolve _
    · exact entry.lifts_offer share

theorem lifts_stack (s : Stacking) (pos remainder : Int)
    (lifts : List.Forall₂ (Entry.Lifts resolve) entries made) :
    List.Forall₂ (Entry.Lifts resolve) entries (stack s pos remainder made) := by
  induction lifts generalizing pos remainder with
  | nil => exact .nil
  | cons first _ ih => exact .cons (first.settled _) (ih _ _)

/-- **A column without extra height changes no child, and another lifts those on the
stack.** -/
theorem settle_cases (resolve : Resolver) (style : Style) (container : Frame) (height : Int)
    (entries : List Entry) :
    extra height (style.gaps resolve container).1 entries ≤ 0 ∧
        settle resolve style container height entries = [] ∨
      0 < extra height (style.gaps resolve container).1 entries ∧
        List.Forall₂ (Entry.Lifts resolve) entries
          (settle resolve style container height entries) := by
  simp only [settle]
  by_cases none : extra height (style.gaps resolve container).1 entries ≤ 0
  · rw [if_pos none]
    exact .inl ⟨none, rfl⟩
  · rw [if_neg none]
    refine .inr ⟨Int.not_le.1 none, ?_⟩
    have grown := lifts_growEntries resolve (extra height (style.gaps resolve container).1 entries)
      entries
    split
    · exact grown
    · exact lifts_stack _ _ _ grown

/-! ## Writing back -/

theorem mem_inStackOrder {frames : List Frame} {entry : Entry} :
    entry ∈ inStackOrder boxes frames ↔ boxes[entry.child]? = some entry.box ∧
      frames[entry.child]? = some entry.frame ∧ entry.box.participates = true ∧
      entry.box.outOfFlow = false := by
  rw [inStackOrder, (List.mergeSort_perm _ Entry.precedes).mem_iff, mem_entriesFrom]
  constructor
  · rintro ⟨k, position, rest⟩
    rw [Nat.zero_add] at position
    rwa [position]
  · exact fun rest => ⟨entry.child, (Nat.zero_add _).symm, rest⟩

theorem nodup_inStackOrder (boxes : List Box) (frames : List Frame) :
    ((inStackOrder boxes frames).map Entry.child).Nodup := by
  refine ((List.mergeSort_perm _ Entry.precedes).map Entry.child).nodup_iff.2 ?_
  exact List.pairwise_map.2 ((entriesFrom_ordered 0 boxes frames).imp fun lt => Nat.ne_of_lt lt)

theorem exists_frames (apart : (entries.map Entry.child).Nodup) :
    ∃ frames : Nat → Frame, ∀ entry ∈ entries, entry.frame = frames entry.child := by
  induction entries with
  | nil => exact ⟨fun _ => {}, fun _ member => absurd member List.not_mem_nil⟩
  | cons entry rest ih =>
      obtain ⟨here, apart⟩ := List.nodup_cons.1 apart
      obtain ⟨frames, each⟩ := ih apart
      refine ⟨fun i => if i = entry.child then entry.frame else frames i,
        List.forall_mem_cons.2 ⟨(if_pos rfl).symm, fun other member => ?_⟩⟩
      have ne : other.child ≠ entry.child := fun same => here (same ▸ List.mem_map_of_mem member)
      exact (each other member).trans (if_neg ne).symm

/-- **Writing back gives every child on the stack its new frame and leaves the others.** -/
theorem writeBack_lifts
    (lifts : List.Forall₂ (Entry.Lifts resolve) (inStackOrder boxes (fragments.map Fragment.frame))
      made) :
    (∀ entry ∈ made, ∃ kid, fragments[entry.child]? = some kid ∧
      (writeBack fragments made)[entry.child]? = some { kid with frame := entry.frame }) ∧
    ∀ i, i ∉ made.map Entry.child → (writeBack fragments made)[i]? = fragments[i]? := by
  have apart : (made.map Entry.child).Nodup := by
    rw [child_eq_of_lifts lifts]
    exact nodup_inStackOrder _ _
  obtain ⟨frames, each⟩ := exists_frames apart
  have found := writeBack_getElem? frames each fragments
  constructor
  · intro entry member
    obtain ⟨source, among, lifts⟩ := exists_of_mem_right lifts member
    obtain ⟨-, at_, -⟩ := mem_inStackOrder.1 among
    rw [List.getElem?_map, ← lifts.child] at at_
    obtain ⟨kid, there, -⟩ := Option.map_eq_some_iff.1 at_
    refine ⟨kid, there, ?_⟩
    rw [found, there, Option.map_some, if_pos (List.mem_map_of_mem member), ← each entry member]
  · intro i out
    rw [found]
    simp [out]

theorem length_writeBack (fragments : List Fragment) (entries : List Entry) :
    (writeBack fragments entries).length = fragments.length := by
  simp only [writeBack]
  induction entries generalizing fragments with
  | nil => rfl
  | cons entry rest ih => rw [List.foldl_cons, ih, List.length_modify]

/-- What is on the stack after writing back. -/
theorem mem_inStackOrder_writeBack
    (lifts : List.Forall₂ (Entry.Lifts resolve) (inStackOrder boxes (fragments.map Fragment.frame))
      made) {entry : Entry} :
    entry ∈ inStackOrder boxes ((writeBack fragments made).map Fragment.frame) ↔ entry ∈ made := by
  obtain ⟨inside, -⟩ := writeBack_lifts lifts
  rw [mem_inStackOrder, List.getElem?_map]
  constructor
  · rintro ⟨atBox, atFrame, takes⟩
    obtain ⟨kid, written, frame⟩ := Option.map_eq_some_iff.1 atFrame
    obtain ⟨bound, -⟩ := List.getElem?_eq_some_iff.1 written
    rw [length_writeBack] at bound
    have among : (⟨entry.child, entry.box, fragments[entry.child].frame⟩ : Entry) ∈
        inStackOrder boxes (fragments.map Fragment.frame) := by
      refine mem_inStackOrder.2 ⟨atBox, ?_, takes⟩
      rw [List.getElem?_map, List.getElem?_eq_getElem bound]
      rfl
    obtain ⟨other, member, lifts⟩ := exists_of_mem_right lifts.flip among
    obtain ⟨_, -, written'⟩ := inside other member
    have child : other.child = entry.child := lifts.child
    have box : other.box = entry.box := lifts.box
    rw [child, written, Option.some.injEq] at written'
    have same : other = entry := by
      obtain ⟨_, _, _⟩ := other
      obtain ⟨_, _, _⟩ := entry
      dsimp only at child box frame written' ⊢
      subst child box frame
      rw [written']
    exact same ▸ member
  · intro member
    obtain ⟨source, among, lifts⟩ := exists_of_mem_right lifts member
    obtain ⟨atBox, -, takes⟩ := mem_inStackOrder.1 among
    obtain ⟨kid, -, written⟩ := inside entry member
    rw [lifts.box, lifts.child]
    refine ⟨atBox, ?_, takes⟩
    rw [← lifts.child, written]
    rfl

theorem precedes_of_lifts (lifts : List.Forall₂ (Entry.Lifts resolve) entries made)
    (sorted : entries.Pairwise fun a b => Entry.precedes a b) :
    made.Pairwise fun a b => Entry.precedes a b := by
  let key (entry : Entry) : Nat × Box := (entry.child, entry.box)
  have keys : made.map key = entries.map key :=
    map_of_lifts lifts key fun _ _ lifts => congrArg₂ Prod.mk lifts.child lifts.box
  have ordered : (entries.map key).Pairwise
      fun a b => Entry.precedes ⟨a.1, a.2, {}⟩ ⟨b.1, b.2, {}⟩ := List.pairwise_map.2 sorted
  rwa [← keys, List.pairwise_map] at ordered

/-- The stack that is written back is the stack of what it is written to. -/
theorem inStackOrder_writeBack
    (lifts : List.Forall₂ (Entry.Lifts resolve) (inStackOrder boxes (fragments.map Fragment.frame))
      made) :
    inStackOrder boxes ((writeBack fragments made).map Fragment.frame) = made := by
  have apart : (made.map Entry.child).Nodup := child_eq_of_lifts lifts ▸ nodup_inStackOrder _ _
  apply eq_inStackOrder
  · refine (List.perm_ext_iff_of_nodup apart.of_map ?_).2 fun entry => ?_
    · refine (entriesFrom_ordered 0 _ _).imp fun {a b} before same => ?_
      subst same
      exact Nat.lt_irrefl _ before
    · rw [← mem_inStackOrder_writeBack lifts]
      exact (List.mergeSort_perm _ Entry.precedes).mem_iff
  · exact precedes_of_lifts lifts
      (List.pairwise_mergeSort Entry.precedes_trans Entry.precedes_total _)

/-! ## The children of one column -/

def stackOf (boxes : List Box) (fragment : Fragment) : List Entry :=
  inStackOrder boxes (fragment.children.map Fragment.frame)

def leftOver (resolve : Resolver) (style : Style) (boxes : List Box) (fragment : Fragment)
    (height : Int) : Int :=
  extra height (style.gaps resolve fragment.frame).1 (stackOf boxes fragment)

/-- What one column does to a child: it lifts it, and if that changes anything the column
has a height, height is left over, and the child is on the stack. -/
structure Steps (resolve : Resolver) (style : Style) (boxes : List Box) (fragment : Fragment)
    (i : Nat) (kid after : Fragment) : Prop where
  children : after.children = kid.children
  lifted : kid.frame.Lifted after.frame
  cause : after.frame ≠ kid.frame → ∃ height box, fragment.frame.height = some height ∧
    0 < leftOver resolve style boxes fragment height ∧
    boxes[i]? = some box ∧ box.participates = true ∧ box.outOfFlow = false

theorem Steps.refl (resolve : Resolver) (style : Style) (boxes : List Box) (fragment : Fragment)
    (i : Nat) (kid : Fragment) : Steps resolve style boxes fragment i kid kid :=
  ⟨rfl, .refl _, fun changed => absurd rfl changed⟩

theorem length_spreadHere (resolve : Resolver) (style : Style) (boxes : List Box)
    (fragment : Fragment) :
    (spreadHere resolve style boxes fragment).length = fragment.children.length := by
  simp only [spreadHere]
  split
  · rfl
  · exact length_writeBack _ _

/-- **A column lifts the children on its stack and leaves the others alone.** -/
theorem spreadHere_step (resolve : Resolver) (style : Style) (boxes : List Box)
    (fragment : Fragment) (i : Nat) {kid : Fragment} (found : fragment.children[i]? = some kid) :
    ∃ after, (spreadHere resolve style boxes fragment)[i]? = some after ∧
      Steps resolve style boxes fragment i kid after := by
  simp only [spreadHere]
  cases known : fragment.frame.height with
  | none => exact ⟨kid, found, .refl ..⟩
  | some height =>
      dsimp only
      rcases settle_cases resolve style fragment.frame height
        (inStackOrder boxes (fragment.children.map Fragment.frame)) with ⟨-, none⟩ | ⟨extra, lifts⟩
      · rw [none]
        exact ⟨kid, found, .refl ..⟩
      · obtain ⟨inside, outside⟩ := writeBack_lifts lifts
        by_cases stacked : i ∈ (settle resolve style fragment.frame height
            (inStackOrder boxes (fragment.children.map Fragment.frame))).map Entry.child
        · obtain ⟨entry, member, rfl⟩ := List.mem_map.1 stacked
          obtain ⟨kid', there, written⟩ := inside entry member
          obtain rfl : kid = kid' := Option.some.inj (found.symm.trans there)
          obtain ⟨source, among, lifts⟩ := exists_of_mem_right lifts member
          obtain ⟨atBox, atFrame, takes⟩ := mem_inStackOrder.1 among
          rw [← lifts.child] at atBox atFrame
          rw [List.getElem?_map, found, Option.map_some, Option.some.injEq] at atFrame
          refine ⟨_, written, rfl, ?_, fun _ => ⟨height, source.box, known, extra, atBox, takes⟩⟩
          rw [atFrame]
          exact lifts.lifted
        · exact ⟨kid, (outside i stacked).trans found, .refl ..⟩

end Slack

end FlexLayout
