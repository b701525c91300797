/-
# FlexLayout.Proofs.Idempotence.Resumed -- a container with the height that it got

The height that a container got is imposed on it when it is laid out again.  Nothing else
differs (`Container.prepare_resumed`), as long as no percentage refers to the height, and
the height is within the limits already (`Resumed.finalFrame_eq`).  But it is definite now, for
the lines, their items, and their places.

That makes no difference to a container that was laid out in the same definite height, to a
row whose lines leave no space across (`Flow.Fills`), and to a column whose lines leave none
to hand out or take away (`Container.Fills`).  A row that does not start from the far end
always is of the first or the second kind (`Container.fills_of_row`).
-/
import FlexLayout.Proofs.MinHeight

namespace FlexLayout

set_option autoImplicit false

open Pairing

/-! ## Gaps that stay -/

def Style.RowGapFixed (resolve : Resolver) (style : Style) : Prop :=
  ∀ length reference, style.rowGap = some length →
    resolve style length reference = resolve style length none

theorem Style.gaps_resumed {resolve : Resolver} {style : Style} (fixed : style.RowGapFixed resolve)
    (frame : Frame) (height : Option Int) :
    style.gaps resolve { frame with height := height } = style.gaps resolve frame := by
  have row : style.gapPixels resolve style.rowGap height =
      style.gapPixels resolve style.rowGap frame.height := by
    simp only [gapPixels]
    cases gap : style.rowGap with
    | none => rfl
    | some length =>
        dsimp only
        rw [fixed length height gap, fixed length frame.height gap]
  simp only [gaps]
  rw [row]

/-! ## The height imposed -/

/-- A container, and the same container with its final height imposed. -/
structure Container.Resumed (container other : Container) (height : Int) : Prop where
  alike : container.Alike other
  frame : other.frame = { container.frame with height := some height }
  limits : other.limits = container.limits
  mainSpace : other.mainSpace =
    if container.axes.horizontal then container.mainSpace else some height
  crossSpace : other.crossSpace =
    if container.axes.horizontal then some height else container.crossSpace

namespace Container

variable {resolve : Resolver} {style : Style} {frame : Frame} {available : Int}

theorem limits_nonneg (resolve : Resolver) (style : Style) (frame : Frame) (available least : Int)
    (found : (prepare resolve style frame available).limits.minHeight = some least ∨
      (prepare resolve style frame available).limits.maxHeight = some least) : 0 ≤ least :=
  found.elim Style.nonneg_of_contentSize? Style.nonneg_of_contentSize?

/-- A frame with a height resolves to what it resolves to without, and that height. -/
theorem resumed_of_resolveFrame (fixed : style.RowGapFixed resolve) {other : Frame} {height : Int}
    (own : resolveFrame resolve style other available =
      { resolveFrame resolve style frame available with height := some height }) :
    (prepare resolve style frame available).Resumed (prepare resolve style other available) height := by
  have gaps := style.gaps_resumed fixed (resolveFrame resolve style frame available) (some height)
  rw [← own] at gaps
  exact
    { alike :=
        { axes := rfl
          contentWidth := congrArg (fun own => own.width.getD 0) own
          mainGap := congrArg Prod.fst gaps
          crossGap := congrArg Prod.snd gaps
          justify := rfl
          alignItems := rfl
          wrap := rfl
          padding := (congrArg Frame.padding own :) }
      frame := own
      limits := congrArg (fun own => own.limits resolve style available) own
      mainSpace := by
        simp only [prepare, axes, own]
        split <;> rfl
      crossSpace := by
        simp only [prepare, axes, own]
        split <;> rfl }

/-- **Laid out again, a container resumes with the height that it got.** -/
theorem prepare_resumed (fixed : style.RowGapFixed resolve) {mainSize crossSize height : Int}
    {final : Frame}
    (ends : final = (prepare resolve style frame available).finalFrame mainSize crossSize)
    (laid : final.height = some height) :
    (prepare resolve style frame available).Resumed (prepare resolve style final available) height := by
  have whole : final =
      { resolveFrame resolve style frame available with height := some height } := by
    rw [← laid, ends]
    rfl
  refine resumed_of_resolveFrame fixed ?_
  rw [whole]
  rfl

theorem prepare_late (fixed : style.RowGapFixed resolve) (height : Int) :
    (prepare resolve style frame available).Resumed
      (prepare resolve style { frame with height := some height } available) height :=
  resumed_of_resolveFrame fixed rfl

theorem hold_nonneg {lower upper : Option Int} (least : ∀ bound, lower = some bound → 0 ≤ bound)
    (most : ∀ bound, upper = some bound → 0 ≤ bound) {size : Int} (nonneg : 0 ≤ size) :
    0 ≤ Limits.hold lower upper size := by
  rcases lower with _ | lower
  · rcases upper with _ | upper
    · exact nonneg
    · have := most upper rfl
      simp only [Limits.hold]
      omega
  · have := least lower rfl
    rcases upper with _ | upper
    · simp only [Limits.hold]
      omega
    · simp only [Limits.hold]
      omega

theorem held_again {lower upper : Option Int} (least : ∀ bound, lower = some bound → 0 ≤ bound)
    (most : ∀ bound, upper = some bound → 0 ≤ bound) (size : Int) :
    max 0 (Limits.hold lower upper (max 0 (Limits.hold lower upper size))) =
      max 0 (Limits.hold lower upper size) := by
  rcases lower with _ | lower
  · rcases upper with _ | upper
    · simp only [Limits.hold]
      omega
    · have := most upper rfl
      simp only [Limits.hold]
      omega
  · have := least lower rfl
    rcases upper with _ | upper
    · simp only [Limits.hold]
      omega
    · simp only [Limits.hold]
      omega

/-- **The height that a container got is within its limits.** -/
theorem Resumed.finalFrame_eq {other : Container} {height mainSize crossSize mainSize' crossSize' : Int}
    (resumed : (prepare resolve style frame available).Resumed other height)
    (laid : ((prepare resolve style frame available).finalFrame mainSize crossSize).height =
      some height) :
    other.finalFrame mainSize' crossSize' =
      (prepare resolve style frame available).finalFrame mainSize crossSize := by
  have bound := limits_nonneg resolve style frame available
  have held : max 0 (other.limits.holdHeight height) = height := by
    rw [resumed.limits]
    rw [finalFrame, Option.some.injEq] at laid
    rw [← laid]
    exact held_again (fun least found => bound least (.inl found))
      (fun most found => bound most (.inr found)) _
  have whole : (prepare resolve style frame available).finalFrame mainSize crossSize =
      { (prepare resolve style frame available).frame with height := some height } := by
    rw [← laid]
    rfl
  rw [whole]
  simp only [finalFrame]
  rw [resumed.frame, Option.getD_some, held]

/-! ## Where the height makes no difference -/

def definiteHeight (container : Container) : Option Int :=
  if container.axes.horizontal then container.crossSpace else container.mainSpace

/-- A line of a column on which a definite main size of `height` changes nothing.  It has
that size where there is no definite one, and its items fill it; or it is no smaller
than the height and than the space there is, starts where these do not matter, and none
of its items can shrink. -/
def Inert (container : Container) (height : Int) (filled : FilledLine) : Prop :=
  (container.mainSpace = none ∧ height = filled.line.main ∧
    (filled.line.flex filled.items none container.mainGap).1.used = filled.line.main) ∨
  (container.mainSpace.getD filled.line.main ≤ filled.line.main ∧ height ≤ filled.line.main ∧
    container.axes.reversed = false ∧ Line.Unshrinking container.mainGap filled)

instance (container : Container) (height : Int) (filled : FilledLine) :
    Decidable (container.Inert height filled) :=
  inferInstanceAs (Decidable ((_ ∧ _ ∧ _) ∨ (_ ∧ _ ∧ _ ∧ _)))

/-- Measured items in layout order are broken into the same lines in a column of this
height, and it changes nothing on them. -/
def Fills (container : Container) (height : Int) (sorted : List Item) : Prop :=
  Line.breakAll { container.breaking with available := some height } sorted =
      Line.breakAll container.breaking sorted ∧
    ∀ filled ∈ Line.breakAll container.breaking sorted, container.Inert height filled

instance (container : Container) (height : Int) (sorted : List Item) :
    Decidable (container.Fills height sorted) :=
  inferInstanceAs (Decidable (_ ∧ _))

end Container

/-- The lines of a row leave nothing free, of this height or of the cross space there is,
and those that start from the far end start from the same. -/
def Flow.Fills (flow : Flow) (height : Int) : Prop :=
  flow.container.crossSpace.getD flow.crossSize ≤ flow.crossSize ∧ height ≤ flow.crossSize ∧
    (flow.container.style.wrap = .wrapReverse →
      flow.container.crossSpace.getD flow.crossSize = height)

instance (flow : Flow) (height : Int) : Decidable (flow.Fills height) :=
  inferInstanceAs (Decidable (_ ∧ _ ∧ (_ → _)))

namespace Container

variable {resolve : Resolver} {style : Style} {frame : Frame} {available height : Int}
  {container other : Container}

namespace Resumed

theorem spaces_eq (resumed : container.Resumed other height)
    (definite : container.definiteHeight = some height) :
    other.mainSpace = container.mainSpace ∧ other.crossSpace = container.crossSpace := by
  rw [resumed.mainSpace, resumed.crossSpace]
  rw [definiteHeight] at definite
  split at definite
  next row => exact ⟨if_pos row, (if_pos row).trans definite.symm⟩
  next column => exact ⟨(if_neg column).trans definite.symm, if_neg column⟩

theorem lines_same (resumed : container.Resumed other height)
    (space : other.mainSpace = container.mainSpace) (sorted : List Item) :
    Line.Lines (Line.PlacedAlike same True container other) (Line.breakAll container.breaking sorted)
      (Line.breakAll other.breaking sorted) := by
  have breaking : other.breaking = container.breaking := by
    simp only [Container.breaking]
    rw [resumed.alike.wrap, resumed.alike.mainGap, space]
  rw [breaking]
  exact Line.lines_same resumed.alike space _

/-- **Lines that the height changes nothing on are placed alike.** -/
theorem lines_alike (resumed : container.Resumed other height) {sorted : List Item}
    (settled : container.definiteHeight = some height ∨ container.axes.horizontal = true ∨
      container.axes.horizontal = false ∧ container.Fills height sorted)
    (fit : container.axes.horizontal = false → ∀ item ∈ sorted, item.Fit) :
    Line.Lines (Line.PlacedAlike same True container other) (Line.breakAll container.breaking sorted)
      (Line.breakAll other.breaking sorted) := by
  rcases settled with definite | row | ⟨column, broken, inert⟩
  · exact resumed.lines_same (resumed.spaces_eq definite).1 sorted
  · exact resumed.lines_same (resumed.mainSpace.trans (if_pos row)) sorted
  · have space : other.mainSpace = some height := by
      rw [resumed.mainSpace, column, if_neg Bool.false_ne_true]
    have breaking : other.breaking = { container.breaking with available := some height } := by
      simp only [Container.breaking]
      rw [resumed.alike.wrap, resumed.alike.mainGap, space]
    rw [breaking, broken]
    apply Line.lines_of_forall₂
    refine List.forall₂_same.2 fun filled member => ?_
    have summed := Line.main_breakAll container.breaking sorted filled member
    have fits : ∀ item ∈ filled.items, item.Fit := by
      intro item among
      refine fit column item ?_
      rw [← Line.items_flatMap_breakAll container.breaking sorted]
      exact List.mem_flatMap.2 ⟨filled, member, among⟩
    -- Either the height is the size that the line was resolved against, or nothing shrinks to it.
    rcases inert filled member with ⟨indefinite, own, full⟩ | ⟨le, le', forward, rigid⟩
    · exact Line.placedAlike_of_full ⟨resumed.alike, indefinite, space⟩ own full
    · refine Line.placedAlike_of_rigid resumed.alike rigid fits summed le ?_ forward
      rw [space]
      exact le'

/-- **Lines that leave nothing of the height free stand in the same places.** -/
theorem spreads_alike {flow flow' : Flow} (resumed : flow.container.Resumed flow'.container height)
    (alike : List.Forall₂ (Line.AlignedAlike same) flow.lines flow'.lines)
    (settled : flow.container.definiteHeight = some height ∨
      flow.container.axes.horizontal = false ∨ flow.Fills height) :
    SpreadsAlike same flow flow' := by
  apply Line.lines_of_forall₂
  rw [Flow.crossSize_alike alike resumed.alike.crossGap]
  have of_space (space : flow'.container.crossSpace = flow.container.crossSpace) :=
    Line.spreadLines_alike alike resumed.alike.wrap resumed.alike.crossGap space flow.crossSize
  rcases settled with definite | column | ⟨le, le', start⟩
  · exact of_space (resumed.spaces_eq definite).2
  · exact of_space (by rw [resumed.crossSpace, column, if_neg Bool.false_ne_true])
  · cases row : flow.container.axes.horizontal with
    | false => exact of_space (by rw [resumed.crossSpace, row, if_neg Bool.false_ne_true])
    | true =>
        have space : flow'.container.crossSpace = some height := by
          rw [resumed.crossSpace, if_pos row]
        apply Line.spreadLines_alike_of_free alike resumed.alike.wrap resumed.alike.crossGap
        · rw [space, Option.getD_some]
          omega
        · intro reversed
          rw [space, Option.getD_some, start reversed]

end Resumed

/-! ## Columns -/

/-- A column that does not wrap got the height that its measured items ask for, gaps
included, and no maximum has cut one of them that can shrink. -/
structure Asked (container : Container) (height : Int) (items : List Item) : Prop where
  indefinite : container.mainSpace = none
  single : container.breaking.wraps = false
  uncut : ∀ item ∈ items, item.Uncut
  few : items.length < 2147483648
  summable : Pixel.Summable
    (Pixel.gapsBetween (Line.hypotheticals items).length container.mainGap :: Line.hypotheticals items)
  height : height = (Line.hypotheticals items).sum +
    Pixel.gapsBetween (Line.hypotheticals items).length container.mainGap

instance (container : Container) (height : Int) (items : List Item) :
    Decidable (container.Asked height items) :=
  decidable_of_iff (container.mainSpace = none ∧ container.breaking.wraps = false ∧
      (∀ item ∈ items, item.Uncut) ∧ items.length < 2147483648 ∧ Pixel.Summable
        (Pixel.gapsBetween (Line.hypotheticals items).length container.mainGap ::
          Line.hypotheticals items) ∧
      height = (Line.hypotheticals items).sum +
        Pixel.gapsBetween (Line.hypotheticals items).length container.mainGap)
    ⟨fun ⟨indefinite, single, uncut, few, summable, height⟩ =>
        ⟨indefinite, single, uncut, few, summable, height⟩,
      fun ⟨indefinite, single, uncut, few, summable, height⟩ =>
        ⟨indefinite, single, uncut, few, summable, height⟩⟩

/-- **A column that gets what its items ask for is filled by them.** -/
theorem Asked.fills {items : List Item} (asked : container.Asked height items)
    (fit : ∀ item ∈ items, item.Fit) : container.Fills height (Item.sortByOrder items) := by
  obtain ⟨indefinite, single, uncut, few, summable, own⟩ := asked
  have perm := Item.sortByOrder_perm items
  have once (rule : Breaking) (single : rule.wraps = false) :
      (Line.breakAll rule (Item.sortByOrder items)).length ≤ 1 :=
    Line.length_breakAll_of_unbroken (.inl single) _
  have gap : ({ container.breaking with available := some height } : Breaking).gap =
      container.breaking.gap := rfl
  refine ⟨Line.breakAll_unbroken gap (once _ single) (once _ single), fun filled member => .inl ?_⟩
  -- The one line there is has all items.
  have whole : filled.items = Item.sortByOrder items := by
    have all := Line.items_flatMap_breakAll container.breaking (Item.sortByOrder items)
    have most := once container.breaking single
    generalize Line.breakAll container.breaking (Item.sortByOrder items) = lines at all most member
    obtain ⟨other, rfl⟩ := List.length_eq_one_iff.1
      (Nat.le_antisymm most (List.length_pos_of_mem member))
    obtain rfl := List.mem_singleton.1 member
    simpa using all
  have asks : (Line.hypotheticals filled.items).Perm (Line.hypotheticals items) := by
    rw [whole]
    exact (perm.filter _).map _
  have count : filled.line.inFlow = (Line.hypotheticals items).length := by
    rw [(Line.sound_breakAll _ _ filled member).inFlow, ← asks.length_eq, Line.hypotheticals,
      List.length_map, List.countP_eq_length_filter]
  have fewer : filled.line.inFlow < 2147483648 := by
    rw [count, Line.hypotheticals, List.length_map]
    exact Nat.lt_of_le_of_lt (List.length_filter_le _ _) few
  have summed := Line.main_breakAll _ _ filled member
  have among (item : Item) (inside : item ∈ filled.items) : item ∈ items :=
    perm.mem_iff.1 (whole ▸ inside)
  have summable' : Pixel.Summable (Pixel.gapsBetween filled.line.inFlow container.mainGap ::
      Line.hypotheticals filled.items) := by
    rw [count]
    exact summable.of_perm (asks.cons _)
  refine ⟨indefinite, ?_, Line.used_flex_of_target summed fewer summable'
    (Line.target_flex_of_uncut summed (fun item inside => fit item (among item inside))
      (fun item inside => uncut item (among item inside)) fewer summable')⟩
  rw [Line.Summed, ← Line.gapsBetween_eq fewer, count, asks.sum_eq] at summed
  exact own.trans summed.symm

/-! ## Rows -/

theorem definiteHeight_of_specified (auto : frame.height = none) {mainSize crossSize specified : Int}
    (given : (prepare resolve style frame available).frame.height = some specified)
    (laid : ((prepare resolve style frame available).finalFrame mainSize crossSize).height =
      some height) :
    (prepare resolve style frame available).definiteHeight = some height := by
  have bound := limits_nonneg resolve style frame available
  have first : (resolveFrame resolve style frame available).height = some specified := given
  have definite : (prepare resolve style frame available).definiteHeight = some specified := by
    simp only [definiteHeight, prepare, axes, first]
    split <;> simp [*]
  have held : (frame.withSizes resolve style available).height.map
      (prepare resolve style frame available).limits.holdHeight = some specified := by
    rw [← first]
    simp only [resolveFrame, auto]
    rfl
  obtain ⟨size, found, rfl⟩ := Option.map_eq_some_iff.1 held
  have nonneg : 0 ≤ size := by
    simp only [Frame.withSizes, Style.contentSize?, Option.bind_eq_some_iff,
      Option.map_eq_some_iff] at found
    obtain ⟨_, -, px, -, rfl⟩ := found
    exact style.contentSize_nonneg px _
  have within : 0 ≤ (prepare resolve style frame available).limits.holdHeight size :=
    hold_nonneg (fun least found => bound least (.inl found))
      (fun most found => bound most (.inr found)) nonneg
  rw [definite, ← laid]
  simp only [finalFrame]
  rw [given, Option.getD_some]
  exact congrArg some ((congrArg (max 0) (Limits.hold_hold _ _ size)).trans
    (Int.max_eq_right within)).symm

theorem crossSize_nonneg (here : prepare resolve style frame available = container)
    {kids : List Kid} {log mid : CallLog} (few : kids.length < 2147483648) {flow : Flow}
    (placed : (Container.flow resolve style frame kids available).outcome log = (.ok flow, mid)) :
    0 ≤ flow.crossSize := by
  obtain ⟨at_, items, sized, start, measured, -, kept⟩ := flow_ok here placed
  have sound := Line.sound_placed kept (Line.sound_breakAll _ _)
  have gap : 0 ≤ flow.container.crossGap := by
    rw [at_, ← here]
    exact crossGap_nonneg resolve style frame available
  have count : flow.lines.length < 2147483648 := by
    have lines := Line.length_breakAll_le container.breaking (Item.sortByOrder items)
    have sorted := (Item.sortByOrder_perm items).length_eq
    have all := Item.measureAll_length 0 0 kids _ _ _ measured
    have placed := kept.length_eq
    dsimp only at all
    omega
  simp only [Flow.crossSize]
  rw [Line.gapsBetween_eq count]
  exact Int.add_nonneg (Line.crossExtent_nonneg sound) (Int.mul_nonneg (Int.natCast_nonneg _) gap)

/-- Content of an `auto` height ends at the positive minimum that it was laid out in, or is
no smaller than that and than the height it ends at. -/
theorem held_content {lower upper : Option Int} (least : ∀ bound, lower = some bound → 0 ≤ bound)
    {content : Int} (nonneg : 0 ≤ content)
    (laid : max 0 (Limits.hold lower upper content) = height) :
    lower.filter (0 < ·) = some height ∨
      (lower.filter (0 < ·)).getD content ≤ content ∧ height ≤ content := by
  rcases lower with _ | lower
  · refine .inr ⟨Int.le_refl content, ?_⟩
    rcases upper with _ | upper
    · simp only [Limits.hold] at laid
      omega
    · simp only [Limits.hold] at laid
      omega
  · have := least lower rfl
    have held : max lower content = height ∨ lower ≤ height ∧ height ≤ max lower content := by
      rcases upper with _ | upper
      · simp only [Limits.hold] at laid
        omega
      · simp only [Limits.hold] at laid
        omega
    by_cases positive : 0 < lower
    · have found : (some lower).filter (0 < ·) = some lower := Option.filter_some_pos (by simpa using positive)
      rw [found, Option.getD_some, Option.some.injEq]
      omega
    · have found : (some lower).filter (0 < ·) = none := Option.filter_some_neg (by simpa using positive)
      rw [found, Option.getD_none]
      omega

/-- **A row that does not start from the far end makes no difference of the height that it
got**, unless another height was imposed on it before. -/
theorem fills_of_row (here : prepare resolve style frame available = container)
    (auto : frame.height = none) (row : container.axes.horizontal = true)
    (forward : style.wrap ≠ .wrapReverse) {kids : List Kid} {log mid : CallLog}
    (few : kids.length < 2147483648) {flow : Flow}
    (placed : (Container.flow resolve style frame kids available).outcome log = (.ok flow, mid))
    (laid : (container.finalFrame flow.mainSize flow.crossSize).height = some height) :
    container.definiteHeight = some height ∨ flow.Fills height := by
  have nonneg := crossSize_nonneg here few placed
  obtain ⟨at_, -⟩ := flow_ok here placed
  subst here
  cases given : (prepare resolve style frame available).frame.height with
  | some specified => exact .inl (definiteHeight_of_specified auto given laid)
  | none =>
      have own : (resolveFrame resolve style frame available).height = none := given
      have space := (prepare_spaces own).2
      rw [if_pos row] at space
      have definite : (prepare resolve style frame available).definiteHeight =
          (prepare resolve style frame available).limits.minHeight.filter (0 < ·) := by
        rw [definiteHeight, if_pos row, space]
      have held : max 0 ((prepare resolve style frame available).limits.holdHeight
          flow.crossSize) = height := by
        simp only [finalFrame, given, row, Option.getD_none, if_true, Option.some.injEq] at laid
        exact laid
      have least := fun bound found => limits_nonneg resolve style frame available bound (.inl found)
      refine (held_content least nonneg held).imp (fun found => definite.trans found) ?_
      rintro ⟨le, le'⟩
      refine ⟨?_, le', fun reversed => absurd ?_ forward⟩
      · rwa [at_, space]
      · rwa [at_] at reversed

end Container

end FlexLayout
