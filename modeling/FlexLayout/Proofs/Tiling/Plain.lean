/-
# FlexLayout.Proofs.Tiling.Plain -- children that keep what they are given

A host lays out a box that is no flex container without touching its edges, its place,
or a size that is known already (`Host.layOutContents_kept`).  Such children are `Plain`.
An item whose child is plain ends with the main size it was given, since its minimum is
no less than its edges (`measureAll_ready`, `giveMainSize_fitted`), and alignment does
not change it along the main axis (`alignKid_settled`).
-/
import FlexLayout.Proofs.Children.Hosted
import FlexLayout.Proofs.Stages.Align
import FlexLayout.Proofs.Tiling.Walk

namespace FlexLayout

set_option autoImplicit false

namespace Kid

/-- A child that is no flex container and keeps what it is given. -/
structure Plain (kid : Kid) : Prop where
  other : kid.box.kind.isFlex = false
  layOut : ∀ fragment available,
    Run.Ensures (fun laid => fragment.frame.Kept laid.frame) (kid.layOut fragment available)

theorem Plain.withFragment {kid : Kid} (plain : kid.Plain) (fragment : Fragment) :
    (kid.withFragment fragment).Plain := ⟨plain.other, plain.layOut⟩

theorem plain_of_layOut {host : Host} {kid : Kid}
    (hosted : kid.layOut = kid.box.layOut host.environment) (other : kid.box.kind ≠ .flex) :
    kid.Plain := by
  refine ⟨beq_eq_false_iff_ne.2 other, fun fragment available => ?_⟩
  rw [hosted, Box.layOut_of_not_flex _ _ _ _ other]
  exact Run.ensures_mapFailure (host.layOutContents_kept _ _ _ _)

theorem plain_of_host (host : Host) {boxes : List Box} {fragments : List Fragment} {kid : Kid}
    (member : kid ∈ ofBoxes host.environment boxes fragments) (other : kid.box.kind ≠ .flex) :
    kid.Plain :=
  plain_of_layOut (layOut_of_mem_ofBoxes member) other

/-- Where no box that takes part is a flex container, all children that do are plain. -/
theorem plain_ofBoxes (host : Host) {boxes : List Box}
    (plain : ∀ box ∈ boxes, box.participates = true → box.kind ≠ .flex) (fragments : List Fragment) :
    ∀ kid ∈ ofBoxes host.environment boxes fragments, kid.box.participates = true → kid.Plain := by
  intro kid member participates
  exact plain_of_host host member (plain kid.box (box_mem_of_mem_ofBoxes member) participates)

/-- A plain child whose main size is known. -/
structure Settled (axes : Axes) (kid : Kid) : Prop where
  plain : kid.Plain
  known : (axes.mainSize? kid.frame).isSome

end Kid

theorem Axes.sameExtent_of_kept {axes : Axes} (frame : Frame) {after : Frame} (kept : frame.Kept after)
    (known : (axes.mainSize? frame).isSome) :
    axes.SameExtent frame after ∧ axes.mainSize? after = axes.mainSize? frame ∧
      axes.mainCoordinate after = axes.mainCoordinate frame := by
  obtain ⟨size, found⟩ := Option.isSome_iff_exists.1 known
  have same : axes.mainSize? after = axes.mainSize? frame := by
    rw [found]
    simp only [Axes.mainSize?] at found ⊢
    cases horizontal : axes.horizontal with
    | true =>
        rw [horizontal] at found
        exact kept.width size found
    | false =>
        rw [horizontal] at found
        exact kept.height size found
  refine ⟨⟨kept.toSameEdges, ?_⟩, same, ?_⟩
  · rw [Axes.mainSize, Axes.mainSize, same]
  · rw [Axes.mainCoordinate, Axes.mainCoordinate, kept.x, kept.y]

namespace Item

variable {resolve : Resolver} {container : Container} {axes : Axes}

/-! ## Measuring -/

/-- An item as it is measured: within its limits, and its minimum is no less than the
edges of its plain child. -/
structure Ready (axes : Axes) (item : Item) (kid : Kid) : Prop where
  plain : kid.Plain
  limited : item.Limited
  least : axes.mainSurround kid.frame ≤ item.minMain

theorem measure_ready (child index : Nat) {kid : Kid} (plain : kid.Plain) :
    Run.Ensures (fun a => a.1.child = child ∧ a.1.Ready container.axes a.2)
      (measure resolve container child index kid) := by
  have limited (box : Box) (sized laid : Frame) :
      (ofBox resolve container child index box sized laid).Limited := hold_hold_main _ _
  have least (box : Box) (sized laid : Frame) : container.axes.mainSurround sized ≤
      (ofBox resolve container child index box sized laid).minMain := Int.le_max_right _ _
  simp only [measure]
  split
  · exact Run.ensures_pure ⟨rfl, plain.withFragment _, limited _ _ _, least _ _ _⟩
  · refine Run.ensures_bind (plain.layOut _ _) ?_
    intro laid kept
    refine Run.ensures_pure ⟨rfl, plain.withFragment _, limited _ _ _, ?_⟩
    have edges : (kid.frame.withSizes resolve kid.box.style container.contentWidth).SameEdges
        laid.frame := ⟨kept.margin, kept.padding, kept.border⟩
    show container.axes.mainSurround laid.frame ≤ _
    rw [edges.mainSurround]
    exact least _ _ _

/-- **What holds of each child that is measured holds of all.** -/
theorem measureAll_each {P : Kid → Item → Kid → Prop} (child index : Nat) {kids : List Kid}
    (each : ∀ kid ∈ kids, kid.box.participates = true → ∀ child index,
      Run.Ensures (fun a => a.1.child = child ∧ P kid a.1 a.2)
        (measure resolve container child index kid)) :
    Run.Ensures (fun a => ∀ item ∈ a.1, child ≤ item.child ∧
        ∃ kid after, kids[item.child - child]? = some kid ∧
          a.2[item.child - child]? = some after ∧ P kid item after)
      (measureAll resolve container child index kids) := by
  induction kids generalizing child index with
  | nil => exact Run.ensures_pure fun _ member => absurd member List.not_mem_nil
  | cons kid rest ih =>
      obtain ⟨here, later⟩ := List.forall_mem_cons.1 each
      have shift {items : List Item} {kids : List Kid} (first : Kid)
          (measured : ∀ item ∈ items, child + 1 ≤ item.child ∧
            ∃ kid after, rest[item.child - (child + 1)]? = some kid ∧
              kids[item.child - (child + 1)]? = some after ∧ P kid item after) :
          ∀ item ∈ items, child ≤ item.child ∧
            ∃ other after, (kid :: rest)[item.child - child]? = some other ∧
              (first :: kids)[item.child - child]? = some after ∧ P other item after := by
        intro item member
        obtain ⟨beyond, other, after, found, found', holds⟩ := measured item member
        have next : item.child - child = item.child - (child + 1) + 1 := by omega
        rw [next, List.getElem?_cons_succ, List.getElem?_cons_succ]
        exact ⟨Nat.le_of_succ_le beyond, other, after, found, found', holds⟩
      rw [measureAll]
      split
      · rename_i participates
        refine Run.ensures_bind (here participates child index) ?_
        rintro a ⟨at_, holds⟩
        refine Run.ensures_bind (ih (child + 1) (index + 1) later) ?_
        intro b rests
        refine Run.ensures_pure (List.forall_mem_cons.2
          ⟨⟨Nat.le_of_eq at_.symm, kid, a.2, ?_, ?_, holds⟩, shift a.2 rests⟩)
        · rw [at_, Nat.sub_self, List.getElem?_cons_zero]
        · rw [at_, Nat.sub_self, List.getElem?_cons_zero]
      · refine Run.ensures_bind (ih (child + 1) index later) ?_
        intro b rests
        exact Run.ensures_pure (shift kid rests)

/-- **Every item is measured ready.** -/
theorem measureAll_ready (child index : Nat) {kids : List Kid}
    (plain : ∀ kid ∈ kids, kid.box.participates = true → kid.Plain) :
    Run.Ensures (fun a => ∀ item ∈ a.1, child ≤ item.child ∧
        ∃ kid after, kids[item.child - child]? = some kid ∧
          a.2[item.child - child]? = some after ∧ item.Ready container.axes after)
      (measureAll resolve container child index kids) :=
  measureAll_each child index fun kid member participates child index =>
    measure_ready child index (plain kid member participates)

/-! ## Sizing -/

/-- An item whose child has the main size it was given. -/
structure Fitted (axes : Axes) (item : Item) (kid : Kid) : Prop where
  settled : kid.Settled axes
  outer : axes.mainOuter kid.frame = item.target

/-- **A child is given the target of its item**, if it is laid out with that size and
keeps it and its edges. -/
theorem giveMainSize_ensures {item : Item} {kid : Kid}
    (keeps : ∀ frame available, kid.frame.SameEdges frame →
      axes.mainSize? frame = some (max 0 (item.target - axes.mainSurround kid.frame)) →
      Run.Ensures (fun laid => frame.SameEdges laid.frame ∧
          axes.mainSize? laid.frame = axes.mainSize? frame)
        (kid.layOut (kid.withFrame frame).fragment available))
    (least : axes.mainSurround kid.frame ≤ item.target) :
    Run.Ensures (fun after => after.box = kid.box ∧ after.layOut = kid.layOut ∧
        kid.frame.SameEdges after.frame ∧ (axes.mainSize? after.frame).isSome ∧
        axes.mainOuter after.frame = item.target) (giveMainSize axes item kid) := by
  have outer {laid : Frame} (edges : kid.frame.SameEdges laid)
      (size : axes.mainSize? laid = some (max 0 (item.target - axes.mainSurround kid.frame))) :
      (axes.mainSize? laid).isSome ∧ axes.mainOuter laid = item.target := by
    rw [Axes.mainOuter, Axes.mainSize, size, edges.mainSurround, Option.getD_some]
    exact ⟨rfl, by omega⟩
  unfold giveMainSize
  cases horizontal : axes.horizontal with
  | true =>
      have surround : axes.mainSurround kid.frame = kid.frame.horizontalSurround := by
        rw [Axes.mainSurround, if_pos horizontal]
      have size (frame : Frame) : axes.mainSize? frame = frame.width := by
        rw [Axes.mainSize?, if_pos horizontal]
      rw [surround] at outer keeps
      rw [if_pos rfl]
      refine Run.ensures_bind (keeps _ _ ⟨rfl, rfl, rfl⟩ (size _)) ?_
      rintro laid ⟨⟨margin, padding, border⟩, width⟩
      refine Run.ensures_pure
        ⟨rfl, rfl, ⟨margin, padding, border⟩, outer ⟨margin, padding, border⟩ ?_⟩
      rw [size, size] at width
      rw [size]
      exact width
  | false =>
      have surround : axes.mainSurround kid.frame = kid.frame.verticalSurround := by
        rw [Axes.mainSurround, if_neg (by simp [horizontal])]
      have size (frame : Frame) : axes.mainSize? frame = frame.height := by
        rw [Axes.mainSize?, if_neg (by simp [horizontal])]
      rw [surround] at outer keeps
      rw [if_neg Bool.false_ne_true]
      dsimp only
      split
      · rename_i same
        refine Run.ensures_pure ⟨rfl, rfl, ⟨rfl, rfl, rfl⟩, outer ⟨rfl, rfl, rfl⟩ ?_⟩
        rw [size, same]
      · refine Run.ensures_bind (keeps _ _ ⟨rfl, rfl, rfl⟩ (size _)) ?_
        rintro laid ⟨⟨margin, padding, border⟩, height⟩
        refine Run.ensures_pure
          ⟨rfl, rfl, ⟨margin, padding, border⟩, outer ⟨margin, padding, border⟩ ?_⟩
        rw [size, size] at height
        rw [size]
        exact height

theorem giveMainSize_fitted {item : Item} {kid : Kid} (plain : kid.Plain)
    (least : axes.mainSurround kid.frame ≤ item.target) :
    Run.Ensures (fun after => item.Fitted axes after ∧ after.frame.margin = kid.frame.margin)
      (giveMainSize axes item kid) := by
  refine (giveMainSize_ensures (fun frame available _ size => ?_) least).mono ?_
  · refine (plain.layOut _ available).mono fun laid kept => ⟨kept.toSameEdges, ?_⟩
    exact (Axes.sameExtent_of_kept frame kept (by rw [size]; rfl)).2.1
  · rintro after ⟨box, layOut, edges, known, outer⟩
    exact ⟨⟨⟨⟨box ▸ plain.other, layOut ▸ plain.layOut⟩, known⟩, outer⟩, edges.margin⟩

end Item

/-! ## Alignment -/

namespace Kid

/-- What alignment leaves of a settled child along the main axis. -/
structure Steady (axes : Axes) (kid after : Kid) : Prop where
  settled : after.Settled axes
  extent : axes.SameExtent kid.frame after.frame
  stays : axes.mainCoordinate after.frame = axes.mainCoordinate kid.frame

variable {axes : Axes} {kid after last : Kid}

theorem Settled.steady (settled : kid.Settled axes) : kid.Steady axes kid :=
  ⟨settled, .refl _ _, rfl⟩

theorem Steady.trans (steady : kid.Steady axes after) (next : after.Steady axes last) :
    kid.Steady axes last :=
  ⟨next.settled, steady.extent.trans next.extent, next.stays.trans steady.stays⟩

end Kid

/-- Late height is handed out in flex containers only. -/
theorem Slack.spread_of_not_flex (resolve : Resolver) {box : Box} (other : box.kind.isFlex = false)
    (fragment : Fragment) : Slack.spread resolve box fragment = fragment := by
  obtain ⟨kind, style, generated, least, most, boxes⟩ := box
  have plain : kind.isFlex = false := other
  simp only [Slack.spread, plain, Bool.false_and, Bool.false_eq_true, if_false]

namespace Container

variable {axes : Axes} {container : Container} {kid : Kid}

theorem stretch_settled (resolve : Resolver) (item : Item) (lineCross : Int)
    (settled : kid.Settled axes) :
    Run.Ensures (kid.Steady axes) (stretch resolve axes item lineCross kid) := by
  simp only [stretch]
  split
  · exact Run.ensures_pure settled.steady
  · let size := stretchedSize axes item kid.frame lineCross
    let resized : Frame := if axes.horizontal then { kid.frame with height := some size }
      else { kid.frame with width := some size }
    have sized : axes.mainSize? resized = axes.mainSize? kid.frame ∧
        axes.SameExtent kid.frame resized ∧
        axes.mainCoordinate resized = axes.mainCoordinate kid.frame := by
      simp only [Axes.mainSize?, Axes.mainCoordinate]
      dsimp only [resized]
      cases horizontal : axes.horizontal with
      | true => exact ⟨rfl, ⟨⟨rfl, rfl, rfl⟩, by simp [Axes.mainSize, Axes.mainSize?, horizontal]⟩, rfl⟩
      | false => exact ⟨rfl, ⟨⟨rfl, rfl, rfl⟩, by simp [Axes.mainSize, Axes.mainSize?, horizontal]⟩, rfl⟩
    refine Run.ensures_bind (settled.plain.layOut _ _) fun laid kept => Run.ensures_pure ?_
    have known : (axes.mainSize? resized).isSome := sized.1 ▸ settled.known
    obtain ⟨extent, same, stays⟩ := Axes.sameExtent_of_kept resized kept known
    rw [Slack.spread_of_not_flex resolve settled.plain.other]
    exact ⟨⟨settled.plain.withFragment _, same ▸ known⟩, sized.2.1.trans extent,
      stays.trans sized.2.2⟩

theorem moveCross_settled (line : Line) (startAuto endAuto : Bool)
    (settled : kid.Settled container.axes) :
    kid.Steady container.axes (container.moveCross line startAuto endAuto kid) := by
  have moved (coordinate : Int) :
      container.axes.mainSize? (container.axes.moveCross kid.frame coordinate) =
          container.axes.mainSize? kid.frame ∧
        container.axes.SameExtent kid.frame (container.axes.moveCross kid.frame coordinate) ∧
        container.axes.mainCoordinate (container.axes.moveCross kid.frame coordinate) =
          container.axes.mainCoordinate kid.frame := by
    simp only [Axes.moveCross, Axes.mainCoordinate, Axes.mainSize?]
    cases horizontal : container.axes.horizontal with
    | true => exact ⟨rfl, ⟨⟨rfl, rfl, rfl⟩, by simp [Axes.mainSize, Axes.mainSize?, horizontal]⟩, rfl⟩
    | false => exact ⟨rfl, ⟨⟨rfl, rfl, rfl⟩, by simp [Axes.mainSize, Axes.mainSize?, horizontal]⟩, rfl⟩
  obtain ⟨size, extent, stays⟩ := moved _
  refine ⟨⟨settled.plain.withFragment _, ?_⟩, extent, stays⟩
  show (container.axes.mainSize? (container.axes.moveCross kid.frame _)).isSome
  rw [size]
  exact settled.known

/-- **Alignment leaves a settled child as it is along the main axis.** -/
theorem alignKid_settled (resolve : Resolver) (line : Line) (item : Item)
    (settled : kid.Settled container.axes) :
    Run.Ensures (kid.Steady container.axes) (alignKid resolve container line item kid) := by
  rw [alignKid_eq]
  split
  · refine Run.ensures_bind (stretch_settled resolve item line.cross settled) ?_
    intro laid steady
    exact Run.ensures_pure (steady.trans (moveCross_settled line _ _ steady.settled))
  · exact Run.ensures_pure (moveCross_settled line _ _ settled)

theorem alignAll_settled (resolve : Resolver) (entries : List (Line × Item)) (kids : List Kid) :
    Run.Ensures (fun after => ∀ (i : Nat) (kid : Kid), kids[i]? = some kid →
        kid.Settled container.axes → ∃ last, after[i]? = some last ∧
          kid.Steady container.axes last)
      (alignAll resolve container entries kids) := by
  induction entries generalizing kids with
  | nil => exact Run.ensures_pure fun i kid found settled => ⟨kid, found, settled.steady⟩
  | cons entry rest ih =>
      obtain ⟨line, item⟩ := entry
      rw [alignAll]
      cases at_ : kids[item.child]? with
      | none => exact ih kids
      | some kid =>
          have first : Run.Ensures (fun after => kid.Settled container.axes →
              kid.Steady container.axes after) (alignKid resolve container line item kid) := by
            by_cases settled : kid.Settled container.axes
            · exact (alignKid_settled resolve line item settled).mono fun _ steady _ => steady
            · exact (Run.ensures_true _).mono fun _ _ holds => absurd holds settled
          refine Run.ensures_bind first fun after steady => (ih (kids.set item.child after)).mono ?_
          intro final later i other found settled
          by_cases here : i = item.child
          · subst here
            have same : kid = other := Option.some.inj (at_.symm.trans found)
            subst same
            have inside : item.child < kids.length := (List.getElem?_eq_some_iff.1 at_).1
            obtain ⟨last, ends, next⟩ := later item.child after
              (List.getElem?_set_self inside) (steady settled).settled
            exact ⟨last, ends, (steady settled).trans next⟩
          · refine later i other ?_ settled
            rw [List.getElem?_set_ne (Ne.symm here), found]

end Container

end FlexLayout
