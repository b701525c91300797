/-
# FlexLayout.Proofs.LateHeight.Stack -- stacking children wherever they stand

Where children stand makes no difference to a stack (`Slack.stack_settled`): if none of
them can grow, late height puts them where they would stand had they been stacked with
that height before, as far as an `auto` margin makes it stack them at all
(`Slack.settle_late`).  It moves no child that is not on the stack (`Slack.writeBack_getElem?`).

On the way to the first `auto` margin it makes no difference to a walk how much its margins
get (`MainTrack.mainCoordinate_late`).
-/
import FlexLayout.Proofs.Restacking.Laid

namespace FlexLayout

set_option autoImplicit false

namespace Slack

variable {entries others : List Entry}

/-! ## Stacks -/

/-- The same children, which may stand elsewhere. -/
def Elsewhere (entries others : List Entry) : Prop :=
  List.Forall₂ (fun entry other => ∃ y, other = entry.settled y) entries others

/-- What does not depend on where the children stand is the same. -/
theorem Elsewhere.map_eq {β : Type} (elsewhere : Elsewhere entries others) (F : Entry → β)
    (unplaced : ∀ (entry : Entry) (y : Int), F (entry.settled y) = F entry) :
    others.map F = entries.map F := by
  rw [← List.forall₂_eq_eq_eq, List.forall₂_map_left_iff, List.forall₂_map_right_iff]
  refine elsewhere.flip.imp ?_
  rintro other entry ⟨y, rfl⟩
  exact unplaced entry y

theorem Elsewhere.extra_eq (elsewhere : Elsewhere entries others) (height gap : Int) :
    extra height gap others = extra height gap entries := by
  have sizes := elsewhere.map_eq (fun entry => entry.frame.marginBoxHeight) fun _ _ => rfl
  simp only [extra]
  rw [sizes, elsewhere.length_eq]

/-- **Children are stacked the same wherever they stand.** -/
theorem stack_settled (elsewhere : Elsewhere entries others) (s : Stacking) (pos remainder : Int) :
    stack s pos remainder others = stack s pos remainder entries := by
  induction elsewhere generalizing pos remainder with
  | nil => rfl
  | @cons entry other entries others moved _ ih =>
      obtain ⟨y, rfl⟩ := moved
      rw [stack, stack]
      exact congrArg (_ :: ·) (ih _ _)

theorem restack_settled (elsewhere : Elsewhere entries others) (container : Frame) (reversed : Bool)
    (height gap left : Int) : restack container reversed height gap left others =
      restack container reversed height gap left entries := by
  have autos := elsewhere.map_eq Entry.autoMargins fun _ _ => rfl
  simp only [restack]
  rw [autos]
  exact stack_settled elsewhere _ _ _

/-- **Late height stacks children as they would stand with that height**, if none of them
can grow; but it does nothing without height that is left over, or without an `auto` margin
to take it. -/
theorem settle_late (resolve : Resolver) (style : Style) (container : Frame) (height : Int)
    (elsewhere : Elsewhere entries others) (ungrowing : ∀ entry ∈ entries, entry.grow.raw = 0)
    (stacked : let left := extra height (style.gaps resolve container).1 others
      0 < left → (others.map Entry.autoMargins).sum ≠ 0 →
        restack container style.direction.axes.reversed height (style.gaps resolve container).1 left
          others = others) :
    settle resolve style container height entries =
      if extra height (style.gaps resolve container).1 others ≤ 0 then []
      else if (others.map Entry.autoMargins).sum = 0 then entries
      else others := by
  have autos := elsewhere.map_eq Entry.autoMargins fun _ _ => rfl
  have full (extra : Int) : growEntries resolve extra entries = entries :=
    growEntries_of_full (fun entry member => .inl (ungrowing entry member)) extra
  dsimp only at stacked
  simp only [settle]
  rw [elsewhere.extra_eq, autos] at stacked ⊢
  split
  · rfl
  · rename_i more
    rw [full, Int.sub_self, Int.sub_zero]
    split
    · rename_i nothing
      rw [if_pos nothing.1]
    · rename_i some
      have some : (entries.map Entry.autoMargins).sum ≠ 0 := fun none => some ⟨none, rfl⟩
      rw [if_neg some, ← stacked (Int.not_le.1 more) some, restack_settled elsewhere]

/-- Writing back changes the children that are on the stack and no others. -/
theorem writeBack_getElem? (frames : Nat → Frame)
    (each : ∀ entry ∈ entries, entry.frame = frames entry.child) (fragments : List Fragment) (i : Nat) :
    (writeBack fragments entries)[i]? = fragments[i]?.map fun fragment =>
      if i ∈ entries.map Entry.child then { fragment with frame := frames i } else fragment := by
  induction entries generalizing fragments with
  | nil => simp [writeBack]
  | cons entry rest ih =>
      obtain ⟨here, later⟩ := List.forall_mem_cons.1 each
      rw [writeBack, List.foldl_cons]
      refine (ih later _).trans ?_
      rw [List.getElem?_modify, Option.map_eq_map, Option.map_map]
      congr 1
      funext fragment
      by_cases first : entry.child = i
      · subst first
        simp [here]
      · have other : i ≠ entry.child := fun same => first same.symm
        simp [first, other]

theorem elsewhere_entryIn (boxes : List Box) {fragments others : List Fragment} {items : List Item}
    (elsewhere : ∀ item ∈ items, ∃ kid y, fragments[item.child]? = some kid ∧
      item.frameIn others = { kid.frame with y := y }) :
    Elsewhere (items.map (Item.entryIn boxes fragments)) (items.map (Item.entryIn boxes others)) := by
  refine List.forall₂_map_left_iff.2 (List.forall₂_map_right_iff.2 (List.forall₂_same.2 ?_))
  intro item member
  obtain ⟨kid, y, found, frame⟩ := elsewhere item member
  refine ⟨y, ?_⟩
  simp only [Item.entryIn, Entry.settled]
  rw [frame, Item.frameIn, found, Option.getD_some]

theorem writeBack_entryIn_getElem? {boxes : List Box} (others : List Fragment) (items : List Item)
    (fragments : List Fragment) (i : Nat) :
    (writeBack fragments (items.map (Item.entryIn boxes others)))[i]? =
      fragments[i]?.map fun fragment =>
        if i ∈ items.map Item.child then { fragment with frame := (others[i]?.getD {}).frame }
        else fragment := by
  have each : ∀ entry ∈ items.map (Item.entryIn boxes others),
      entry.frame = (others[entry.child]?.getD {}).frame := by
    intro entry member
    obtain ⟨item, -, rfl⟩ := List.mem_map.1 member
    rfl
  have positions : (items.map (Item.entryIn boxes others)).map Entry.child = items.map Item.child :=
    List.map_map
  rw [writeBack_getElem? (fun i => (others[i]?.getD {}).frame) each, positions]

/-! ## Frames -/

theorem spread_frame (resolve : Resolver) (box : Box) (fragment : Fragment) :
    (spread resolve box fragment).frame = fragment.frame := by
  obtain ⟨kind, style, generated, least, most, boxes⟩ := box
  rw [spread]
  split <;> rfl

theorem spreadAll_frames (resolve : Resolver) (boxes : List Box) (fragments : List Fragment) :
    (spreadAll resolve boxes fragments).map Fragment.frame = fragments.map Fragment.frame := by
  induction boxes generalizing fragments with
  | nil => rfl
  | cons box boxes ih =>
      cases fragments with
      | nil => rfl
      | cons fragment fragments => rw [spreadAll, List.map_cons, List.map_cons, spread_frame, ih]

/-- The frames of a column's children after late height are those of its own stack. -/
theorem spread_frames (resolve : Resolver) {box : Box} (flex : box.kind = .flex)
    (vertical : box.style.direction.axes.horizontal = false) (fragment : Fragment) :
    (spread resolve box fragment).children.map Fragment.frame =
      (spreadHere resolve box.style box.children fragment).map Fragment.frame := by
  obtain ⟨kind, style, generated, least, most, boxes⟩ := box
  dsimp only at flex vertical ⊢
  subst flex
  simp only [spread, vertical, BoxKind.isFlex, Bool.not_false, Bool.and_true, beq_self_eq_true, if_true]
  exact spreadAll_frames resolve boxes _

end Slack

namespace Line

variable {resolve : Resolver} {container : Container} {filled : FilledLine} {boxes : List Box}
  {fragment : Fragment} {height : Int}

/-- The positions of the items in flow are those of the children in flow. -/
theorem Lists.mem_inFlow {items : List Item} (lists : Lists boxes items) {i : Nat} {child : Box}
    (found : boxes[i]? = some child) :
    i ∈ (items.filter fun item => !item.outOfFlow).map Item.child ↔
      child.participates = true ∧ child.outOfFlow = false := by
  constructor
  · intro member
    obtain ⟨item, among, rfl⟩ := List.mem_map.1 member
    obtain ⟨inside, flows⟩ := List.mem_filter.1 among
    obtain ⟨named, at_, names⟩ := lists.names item inside
    obtain rfl : child = named := Option.some.inj (found.symm.trans at_)
    exact ⟨names.participates, names.outOfFlow.symm.trans (by simpa using flows)⟩
  · rintro ⟨participates, flows⟩
    obtain ⟨item, inside, rfl⟩ := lists.all i child found participates
    obtain ⟨named, at_, names⟩ := lists.names item inside
    obtain rfl : child = named := Option.some.inj (found.symm.trans at_)
    refine List.mem_map_of_mem (List.mem_filter.2 ⟨inside, ?_⟩)
    rw [names.outOfFlow, flows]
    rfl

/-- Late height puts the children of a column where they stand in its layout: there is some
left over, and an `auto` margin to take it. -/
def Restacked (container : Container) (height : Int) (filled : FilledLine) : Prop :=
  0 < leftOver container height filled ∧ filled.line.autoMargins ≠ 0

instance (container : Container) (height : Int) (filled : FilledLine) :
    Decidable (Restacked container height filled) :=
  inferInstanceAs (Decidable (_ ∧ _))

/-- **Children that stood elsewhere are put where they stand in a column that was laid out
with its height**: the items in flow, if the stack is made again at all, and no other
children. -/
theorem Column.spreadHere_late (column : Column resolve container height filled boxes fragment)
    {children : List Fragment}
    (elsewhere : ∀ item ∈ filled.items, ∃ kid y, children[item.child]? = some kid ∧
      item.frameIn fragment.children = { kid.frame with y := y })
    (ungrowing : ∀ item ∈ filled.items, item.outOfFlow = false →
      (item.entryIn boxes fragment.children).grow.raw = 0)
    (used : filled.line.used = (sizesInFlow filled.items).sum +
      Pixel.gapsBetween filled.line.inFlow container.mainGap) (i : Nat) :
    (Slack.spreadHere resolve container.style boxes { fragment with children := children })[i]? =
      children[i]?.map fun kid =>
        if Restacked container height filled ∧
            i ∈ (filled.items.filter fun item => !item.outOfFlow).map Item.child then
          { kid with frame := (fragment.children[i]?.getD {}).frame }
        else kid := by
  have seats : ∀ item ∈ filled.items, (children[item.child]?).isSome := by
    intro item member
    obtain ⟨kid, y, found, -⟩ := elsewhere item member
    rw [found]
    rfl
  have moved := Slack.elsewhere_entryIn boxes
    fun item (member : item ∈ filled.items.filter fun item => !item.outOfFlow) =>
      elsewhere item (List.mem_of_mem_filter member)
  have settled := Slack.settle_late resolve container.style fragment.frame height moved ?_ ?_
  · simp only [Slack.spreadHere]
    rw [column.known, Slack.inStackOrder_eq column.lists seats]
    dsimp only
    rw [settled, column.gap, column.extra_eq, column.sum_autoMargins]
    by_cases restacked : Restacked container height filled
    · rw [if_neg (Int.not_le.2 restacked.1), if_neg restacked.2, Slack.writeBack_entryIn_getElem?]
      simp only [restacked, true_and]
    · simp only [restacked, false_and, if_false, Option.map_id_fun']
      split
      · rfl
      · rename_i more
        rw [if_pos (not_not.1 fun some => restacked ⟨Int.not_le.1 more, some⟩),
          Slack.writeBack_entryIn fun item member => seats item (List.mem_of_mem_filter member)]
        rfl
  · intro entry member
    obtain ⟨item, among, rfl⟩ := List.mem_map.1 member
    obtain ⟨inside, flows⟩ := List.mem_filter.1 among
    exact ungrowing item inside (by simpa using flows)
  · dsimp only
    rw [column.gap, column.extra_eq, column.sum_autoMargins]
    exact column.restack_eq used

end Line

/-! ## Walks that differ in what `auto` margins get -/

namespace MainTrack

variable {track : MainTrack} {axes : Axes}

/-- An item of a walk, and the same item of another one. -/
def WalksAlike (axes : Axes) (entry other : Item × Frame) : Prop :=
  other.1.outOfFlow = entry.1.outOfFlow ∧ axes.SameExtent entry.2 other.2

/-- The item takes none of the free space. -/
def Unsprung (axes : Axes) (entry : Item × Frame) : Prop :=
  entry.1.outOfFlow = false → axes.autoMainMargins entry.2 = 0

/-- An item without `auto` margins goes to the same place and moves a walk alike, whatever
`auto` margins get. -/
theorem step_late (track : MainTrack) (share remainder : Int) {walk walk' : MainWalk} {entry other : Item × Frame}
    (alike : WalksAlike axes entry other) (unsprung : Unsprung axes entry)
    (pos : walk'.pos = walk.pos) (placed : walk'.placed = walk.placed) :
    let step := track.step axes walk entry.1 entry.2
    let step' := { track with autoShare := share, autoRemainder := remainder }.step axes walk' other.1
      other.2
    step'.1 = step.1 ∧ step'.2.pos = step.2.pos ∧ step'.2.placed = step.2.placed := by
  obtain ⟨flow, extent⟩ := alike
  dsimp only
  rw [extent.step]
  simp only [step]
  rw [flow]
  cases out : entry.1.outOfFlow with
  | true => simp [pos, placed]
  | false =>
      have none := unsprung out
      rw [Axes.autoMainMargins_eq, Nat.add_eq_zero_iff, Bool.toNat_eq_zero, Bool.toNat_eq_zero] at none
      simp [marginShare, afterMargin, none, pos, placed, spaceAfter]

/-- **Up to the first `auto` margin, items stand at the same places whatever `auto` margins
get.** -/
theorem mainCoordinate_late {share remainder : Int} {walk walk' : MainWalk}
    {front front' back back' : List (Item × Frame)} {entry other : Item × Frame}
    (pos : walk'.pos = walk.pos) (placed : walk'.placed = walk.placed)
    (fronts : List.Forall₂ (WalksAlike axes) front front') (alike : WalksAlike axes entry other)
    (unsprung : ∀ before ∈ front, Unsprung axes before) (here : Unsprung axes entry)
    (walked : track.Walked axes walk (front ++ entry :: back))
    (walked' : { track with autoShare := share, autoRemainder := remainder }.Walked axes walk'
      (front' ++ other :: back')) :
    axes.mainCoordinate other.2 = axes.mainCoordinate entry.2 := by
  induction fronts generalizing walk walk' with
  | nil =>
      rw [← (walked_cons.1 walked).1, ← (walked_cons.1 walked').1]
      exact (step_late track share remainder alike here pos placed).1
  | @cons before before' front front' first _ ih =>
      obtain ⟨now, later⟩ := List.forall_mem_cons.1 unsprung
      obtain ⟨-, walked⟩ := walked_cons.1 walked
      obtain ⟨-, walked'⟩ := walked_cons.1 walked'
      obtain ⟨-, pos, placed⟩ := step_late track share remainder first now pos placed
      exact ih pos placed later walked walked'

/-- Tracks of a line that is walked forward from its start, in containers that differ in the
space along the main axis. -/
theorem ofLine_late {container other : Container} (alike : container.Alike other)
    (forward : container.axes.reversed = false) (flush : container.style.justify = .flexStart)
    {line line' : Line} (inFlow : line'.inFlow = line.inFlow) :
    ofLine other line' = { ofLine container line with
      autoShare := (ofLine other line').autoShare
      autoRemainder := (ofLine other line').autoRemainder } := by
  have plain (free : Int) (count : Nat) : Spacing.justify .flexStart free count = {} := rfl
  simp only [ofLine, alike.axes, alike.padding, alike.mainGap, alike.justify, flush, plain, forward,
    inFlow, ite_self, Bool.false_eq_true, if_false]

end MainTrack

end FlexLayout
