/-
# FlexLayout.Proofs.Restacking.Laid -- late height in a column that is laid out

When the items of a column were walked at their target sizes, the height that is left
over is what their line leaves free, and it goes to the same `auto` margins in the same
shares.  So nothing changes when it is handed out, unless an item can still grow
(`Column.spreadHere_eq`).
-/
import FlexLayout.Proofs.Restacking.Entries

namespace FlexLayout

set_option autoImplicit false

theorem Share.deal_of_keep {α : Type} {claims : α → Bool} {weight : α → Int} {give : α → Int → α}
    {list : List α} (keep : ∀ a ∈ list, claims a = true → ∀ share, give a share = a) (share : Share) :
    Share.deal claims weight give share list = list := by
  induction list generalizing share with
  | nil => rfl
  | cons a rest ih =>
      obtain ⟨here, later⟩ := List.forall_mem_cons.1 keep
      rw [deal]
      split
      · rename_i claim
        rw [here claim, ih later]
      · rw [ih later]

namespace Slack

variable {resolve : Resolver}

/-- The child cannot grow: it has no grow factor, or it is as high as it may be. -/
def Entry.Full (resolve : Resolver) (entry : Entry) : Prop :=
  entry.grow.raw = 0 ∨
    ∃ height, entry.frame.height = some height ∧ entry.maxHeight? resolve = some height

theorem Entry.Full.offer {entry : Entry} (full : entry.Full resolve)
    (claims : (!entry.grow.isZero) = true) (share : Int) : entry.offer resolve share = entry := by
  obtain ⟨height, known, most⟩ := full.resolve_left (by simpa [Factor.isZero] using claims)
  have kept : max (min (Pixel.add height share) height) height = height := by omega
  have stays : ∀ size, size = entry.frame.height →
      ({ entry with frame := { entry.frame with height := size } } : Entry) = entry := by
    rintro size rfl
    rfl
  simp only [Entry.offer]
  rw [most, known, Option.getD_some, kept]
  exact stays _ known.symm

theorem growEntries_of_full {entries : List Entry} (full : ∀ entry ∈ entries, entry.Full resolve)
    (extra : Int) : growEntries resolve extra entries = entries := by
  simp only [growEntries]
  split
  · rfl
  · exact Share.deal_of_keep (fun entry member claims => (full entry member).offer claims) _

/-- **Late height changes nothing in a stack** without left-over height, or without a
child that can grow when its `auto` margins have their shares already. -/
theorem settle_steady (resolve : Resolver) (style : Style) (container : Frame) (height : Int)
    (entries : List Entry)
    (steady : 0 < extra height (style.gaps resolve container).1 entries →
      (∀ entry ∈ entries, entry.Full resolve) ∧
        ((entries.map Entry.autoMargins).sum ≠ 0 →
          restack container style.direction.axes.reversed height (style.gaps resolve container).1
            (extra height (style.gaps resolve container).1 entries) entries = entries)) :
    settle resolve style container height entries = [] ∨
      settle resolve style container height entries = entries := by
  simp only [settle]
  split
  · exact .inl rfl
  · rename_i more
    obtain ⟨full, stacked⟩ := steady (Int.not_le.1 more)
    right
    rw [growEntries_of_full full, Int.sub_self, Int.sub_zero]
    split
    · rfl
    · rename_i changes
      exact stacked fun none => changes ⟨none, rfl⟩

theorem writeBack_same {fragments : List Fragment} {entries : List Entry}
    (same : ∀ entry ∈ entries, ∃ fragment, fragments[entry.child]? = some fragment ∧
      entry.frame = fragment.frame) : writeBack fragments entries = fragments := by
  induction entries with
  | nil => rfl
  | cons entry rest ih =>
      obtain ⟨⟨fragment, found, frame⟩, later⟩ := List.forall_mem_cons.1 same
      have kept : (fragments.modify entry.child fun fragment =>
          { fragment with frame := entry.frame }) = fragments := by
        refine List.ext_getElem? fun i => ?_
        by_cases here : entry.child = i
        · subst here
          rw [List.getElem?_modify_eq, found, frame]
          cases fragment
          rfl
        · rw [List.getElem?_modify_ne _ _ here]
      rw [writeBack, List.foldl_cons, kept]
      exact ih later

theorem writeBack_entryIn {boxes : List Box} {fragments : List Fragment} {items : List Item}
    (seated : ∀ item ∈ items, (fragments[item.child]?).isSome) :
    writeBack fragments (items.map (Item.entryIn boxes fragments)) = fragments := by
  refine writeBack_same fun entry member => ?_
  obtain ⟨item, among, rfl⟩ := List.mem_map.1 member
  obtain ⟨kid, found⟩ := Option.isSome_iff_exists.1 (seated item among)
  refine ⟨kid, found, ?_⟩
  show (fragments[item.child]?.getD {}).frame = kid.frame
  rw [found, Option.getD_some]

end Slack

namespace Line

variable {resolve : Resolver} {container : Container} {filled : FilledLine} {boxes : List Box}
  {fragment : Fragment} {height : Int}

/-- What the line of a column leaves of a definite height. -/
def leftOver (container : Container) (height : Int) (filled : FilledLine) : Int :=
  height - (sizesInFlow filled.items).sum - Pixel.gapsBetween filled.line.inFlow container.mainGap

structure Column (resolve : Resolver) (container : Container) (height : Int) (filled : FilledLine)
    (boxes : List Box) (fragment : Fragment) : Prop where
  vertical : container.axes.horizontal = false
  definite : container.mainSpace = some height
  known : fragment.frame.height = some height
  padding : fragment.frame.padding = container.frame.padding
  gap : (container.style.gaps resolve fragment.frame).1 = container.mainGap
  laid : Laid container filled (Item.frameIn fragment.children)
  sound : Sound filled
  lists : Lists boxes filled.items
  seated : ∀ item ∈ filled.items, (fragment.children[item.child]?).isSome

variable (column : Column resolve container height filled boxes fragment)

include column

theorem Column.extra_eq :
    Slack.extra height container.mainGap
        ((filled.items.filter fun item => !item.outOfFlow).map (Item.entryIn boxes fragment.children)) =
      leftOver container height filled := by
  have outer := column.laid.sum_outer
  simp only [framesInFlow, List.map_map] at outer
  simp only [Slack.extra, leftOver]
  rw [← outer, List.map_map, List.length_map, column.sound.inFlow, List.countP_eq_length_filter]
  congr 2
  exact congrArg List.sum (List.map_congr_left fun item _ =>
    (Axes.mainOuter_column column.vertical _).symm)

theorem Column.sum_autoMargins :
    (((filled.items.filter fun item => !item.outOfFlow).map
      (Item.entryIn boxes fragment.children)).map Slack.Entry.autoMargins).sum =
        filled.line.autoMargins := by
  rw [column.laid.autos, framesInFlow, List.map_map, List.map_map]
  exact congrArg List.sum (List.map_congr_left fun item _ =>
    (Axes.autoMainMargins_column column.vertical _).symm)

/-- The shares of `auto` margins are those that the line gave them. -/
theorem Column.restack_eq
    (used : filled.line.used = (sizesInFlow filled.items).sum +
      Pixel.gapsBetween filled.line.inFlow container.mainGap)
    (more : 0 < leftOver container height filled) (some : filled.line.autoMargins ≠ 0) :
    let entries := (filled.items.filter fun item => !item.outOfFlow).map
      (Item.entryIn boxes fragment.children)
    Slack.restack fragment.frame container.axes.reversed height container.mainGap
      (leftOver container height filled) entries = entries := by
  intro entries
  have autos : (entries.map Slack.Entry.autoMargins).sum = filled.line.autoMargins :=
    column.sum_autoMargins
  have free : filled.line.free container = leftOver container height filled := by
    simp only [Line.free, Line.room, column.definite, Option.getD_some, leftOver] at more ⊢
    omega
  have spacing : (MainTrack.ofLine container filled.line).spacing = {} := by
    rw [spacing_ofLine, if_neg some]
  have room : filled.line.room container = height := by
    rw [Line.room, column.definite, Option.getD_some]
  have start := start_ofLine container filled.line
  have share := autoShare_ofLine container filled.line
  have remainder := autoRemainder_ofLine container filled.line
  have positive : 0 < leftOver container height filled ∧ 0 < (filled.line.autoMargins : Int) :=
    ⟨more, by omega⟩
  rw [spacing, Axes.lowMain_column column.vertical, room] at start
  rw [free, if_pos positive] at share remainder
  have walked := Slack.stack_walked column.vertical
    { reversed := container.axes.reversed, gap := container.mainGap
      share := (leftOver container height filled).tdiv filled.line.autoMargins }
    rfl rfl share.symm spacing (fun item member => by simpa using (List.mem_filter.1 member).2)
    (Nat.le_of_eq ?_) (Item.entryIn boxes fragment.children) column.laid.walked.filter
  · simp only [Slack.restack, autos]
    rw [if_pos positive.2, if_pos positive.2]
    rw [show (MainTrack.ofLine container filled.line).begin.pos =
      (MainTrack.ofLine container filled.line).start from rfl,
      show (MainTrack.ofLine container filled.line).begin.remainder =
      (MainTrack.ofLine container filled.line).autoRemainder from rfl, start, remainder] at walked
    rw [column.padding]
    simpa [Sides.get] using walked
  · show 0 + _ = filled.line.inFlow
    rw [column.sound.inFlow, List.countP_eq_length_filter, Nat.zero_add]

/-- **Late height changes nothing in a column that was laid out with its height**, if it
leaves no height over or if none of its items can grow. -/
theorem Column.spreadHere_eq
    (full : 0 < leftOver container height filled →
      (∀ item ∈ filled.items, item.outOfFlow = false →
        (item.entryIn boxes fragment.children).Full resolve) ∧
      filled.line.used = (sizesInFlow filled.items).sum +
        Pixel.gapsBetween filled.line.inFlow container.mainGap) :
    Slack.spreadHere resolve container.style boxes fragment = fragment.children := by
  simp only [Slack.spreadHere]
  rw [column.known, Slack.inStackOrder_eq column.lists column.seated]
  dsimp only
  have extra := column.extra_eq
  have steady := Slack.settle_steady resolve container.style fragment.frame height
    ((filled.items.filter fun item => !item.outOfFlow).map
      (Item.entryIn boxes fragment.children)) (by
    rw [column.gap, extra]
    intro more
    obtain ⟨full, used⟩ := full more
    refine ⟨fun entry member => ?_, fun some => column.restack_eq used more fun none => some ?_⟩
    · obtain ⟨item, among, rfl⟩ := List.mem_map.1 member
      obtain ⟨inside, flow⟩ := List.mem_filter.1 among
      exact full item inside (by simpa using flow)
    · exact column.sum_autoMargins.trans none)
  rcases steady with none | same
  · rw [none]
    rfl
  · rw [same]
    exact Slack.writeBack_entryIn fun item member =>
      column.seated item (List.mem_of_mem_filter member)

end Line

end FlexLayout
