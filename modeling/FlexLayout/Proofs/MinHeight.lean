/-
# FlexLayout.Proofs.MinHeight -- a minimum height that does not bind

A minimum height is more than a bound: where the height is `auto`, a positive minimum is
the definite size that the items are laid out in.  So even one that does not bind may
break a column into lines, shrink its items or move lines that start from the far end
(`Box.layOutFlex_minHeight_breaks`).  Where it has none of these effects
(`Container.Neutral`), the layout is the same as without it, down to the calls that
are made (`Box.layOutFlex_minHeight`).
-/
import FlexLayout.Proofs.Stages.Definite
import FlexLayout.Proofs.Stages.Rerun

namespace FlexLayout

set_option autoImplicit false

open Pairing

/-! ## A container with a minimum height -/

def Style.withMinHeight (style : Style) (length : Length) : Style :=
  { style with minHeight := some length }

theorem Host.resolve_withMinHeight (host : Host) (style : Style) (length : Length) :
    host.resolve (style.withMinHeight length) = host.resolve style := by
  simp only [Host.resolve]
  split
  · funext other reference
    cases other <;> rfl
  · rfl

/-- A container of `auto` height without limits on it, and one that is like it but has
a minimum height. -/
structure Container.Raised (container other : Container) : Prop where
  alike : container.Alike other
  frame : other.frame = container.frame
  height : container.frame.height = none
  minHeight : container.limits.minHeight = none
  maxHeight : container.limits.maxHeight = none
  maxHeight' : other.limits.maxHeight = none
  mainSpace : container.axes.horizontal = true → other.mainSpace = container.mainSpace
  crossSpace : container.axes.horizontal = false → other.crossSpace = container.crossSpace
  mainSpace_column : container.axes.horizontal = false →
    container.mainSpace = none ∧ other.mainSpace = other.limits.minHeight.filter (0 < ·)
  crossSpace_row : container.axes.horizontal = true →
    container.crossSpace = none ∧ other.crossSpace = other.limits.minHeight.filter (0 < ·)

namespace Container

/-- The minimum content height of a container; zero without one. -/
def leastHeight (container : Container) : Int := container.limits.minHeight.getD 0

/-- Where the height is `auto`, the minimum is the definite size if it is positive. -/
theorem prepare_spaces {resolve : Resolver} {style : Style} {frame : Frame} {available : Int}
    (height : (resolveFrame resolve style frame available).height = none) :
    let container := prepare resolve style frame available
    container.mainSpace = (if container.axes.horizontal then some container.contentWidth
      else container.limits.minHeight.filter (0 < ·)) ∧
    container.crossSpace = if container.axes.horizontal then
      container.limits.minHeight.filter (0 < ·) else some container.contentWidth := by
  have definite : ((resolveFrame resolve style frame available).height <|>
      (prepare resolve style frame available).limits.minHeight.filter (0 < ·)) =
      (prepare resolve style frame available).limits.minHeight.filter (0 < ·) := by
    rw [height]
    rfl
  constructor
  · show (if style.direction.axes.horizontal then _ else _) = _
    rw [← definite]
    rfl
  · show (if style.direction.axes.horizontal then _ else _) = _
    rw [← definite]
    rfl

theorem height_withSizes (resolve : Resolver) {style : Style} (frame : Frame) (available : Int)
    (auto : style.height = none) : (frame.withSizes resolve style available).height = none := by
  simp [Frame.withSizes, auto, Style.contentSize?]

theorem resolveFrame_height (resolve : Resolver) {style : Style} {frame : Frame} (available : Int)
    (entry : frame.height = none) (auto : style.height = none) :
    (resolveFrame resolve style frame available).height = none := by
  simp only [resolveFrame]
  rw [entry]
  dsimp only
  rw [height_withSizes resolve frame available auto]
  rfl

section

variable {resolve : Resolver} {style : Style} {length : Length}

/-! A minimum height does not change how sizes, limits of the width and gaps resolve. -/

theorem withSizes_withMinHeight (same : resolve (style.withMinHeight length) = resolve style)
    (frame : Frame) (available : Int) :
    frame.withSizes resolve (style.withMinHeight length) available =
      frame.withSizes resolve style available := by
  simp only [Frame.withSizes, Frame.withEdges, Style.contentSize?]
  rw [same]
  rfl

theorem holdWidth_withMinHeight (same : resolve (style.withMinHeight length) = resolve style)
    (frame : Frame) (available size : Int) :
    (frame.limits resolve (style.withMinHeight length) available).holdWidth size =
      (frame.limits resolve style available).holdWidth size := by
  simp only [Frame.limits, Style.contentSize?]
  rw [same]
  rfl

theorem gaps_withMinHeight (same : resolve (style.withMinHeight length) = resolve style)
    (frame : Frame) : (style.withMinHeight length).gaps resolve frame = style.gaps resolve frame := by
  simp only [Style.gaps, Style.gapPixels]
  rw [same]
  rfl

theorem resolveFrame_withMinHeight (same : resolve (style.withMinHeight length) = resolve style)
    {frame : Frame} (available : Int) (entry : frame.height = none) (auto : style.height = none) :
    resolveFrame resolve (style.withMinHeight length) frame available =
      resolveFrame resolve style frame available := by
  simp only [resolveFrame]
  rw [withSizes_withMinHeight same, entry]
  dsimp only
  rw [height_withSizes resolve frame available auto, holdWidth_withMinHeight same]
  rfl

end

/-- A minimum height makes no other difference to a container. -/
theorem prepare_raised {resolve : Resolver} {style : Style} {frame : Frame} (available : Int)
    {length : Length} (same : resolve (style.withMinHeight length) = resolve style)
    (entry : frame.height = none) (auto : style.height = none) (least : style.minHeight = none)
    (most : style.maxHeight = none) :
    (prepare resolve style frame available).Raised
      (prepare resolve (style.withMinHeight length) frame available) := by
  have own := resolveFrame_withMinHeight same available entry auto
  have width : (prepare resolve (style.withMinHeight length) frame available).contentWidth =
      (prepare resolve style frame available).contentWidth :=
    congrArg (fun own => own.width.getD 0) own
  have axes : (prepare resolve (style.withMinHeight length) frame available).axes =
      (prepare resolve style frame available).axes := rfl
  have lax : (prepare resolve style frame available).limits.minHeight = none := by
    show style.contentSize? resolve style.minHeight _ _ = none
    rw [least]
    rfl
  have spaces := prepare_spaces (resolveFrame_height resolve available entry auto)
  have height' : (resolveFrame resolve (style.withMinHeight length) frame available).height = none :=
    resolveFrame_height resolve available entry auto
  have spaces' := prepare_spaces height'
  dsimp only at spaces spaces'
  rw [axes, width] at spaces'
  exact
    { alike :=
        { axes := axes
          contentWidth := width
          mainGap := by
            show ((style.withMinHeight length).gaps resolve _).1 = _
            rw [own, gaps_withMinHeight same]
            rfl
          crossGap := by
            show ((style.withMinHeight length).gaps resolve _).2 = _
            rw [own, gaps_withMinHeight same]
            rfl
          justify := rfl
          alignItems := rfl
          wrap := rfl
          padding := congrArg Frame.padding own }
      frame := own
      height := resolveFrame_height resolve available entry auto
      minHeight := lax
      maxHeight := by
        show style.contentSize? resolve style.maxHeight _ _ = none
        rw [most]
        rfl
      maxHeight' := by
        show Style.contentSize? _ resolve style.maxHeight _ _ = none
        rw [most]
        rfl
      mainSpace row := by
        rw [spaces.1, spaces'.1, if_pos row, if_pos row]
      crossSpace column := by
        rw [spaces.2, spaces'.2, if_neg (by simp [column]), if_neg (by simp [column])]
      mainSpace_column column := by
        rw [spaces.1, spaces'.1, if_neg (by simp [column]), if_neg (by simp [column]), lax]
        exact ⟨rfl, rfl⟩
      crossSpace_row row := by
        rw [spaces.2, spaces'.2, if_pos row, if_pos row, lax]
        exact ⟨rfl, rfl⟩ }

variable {container other : Container}

namespace Raised

theorem not_positive (least : other.leastHeight ≤ 0) :
    other.limits.minHeight.filter (0 < ·) = none := by
  simp only [leastHeight] at least
  cases given : other.limits.minHeight with
  | none => rfl
  | some size =>
      rw [given, Option.getD_some] at least
      simp [Option.filter, least]

theorem positive (least : 0 < other.leastHeight) :
    other.limits.minHeight.filter (0 < ·) = some other.leastHeight := by
  simp only [leastHeight] at least ⊢
  cases given : other.limits.minHeight with
  | none =>
      rw [given, Option.getD_none] at least
      exact absurd least (Int.lt_irrefl 0)
  | some size =>
      rw [given, Option.getD_some] at least
      simp [Option.filter, least]

theorem mainSpace_eq (raised : container.Raised other)
    (same : container.axes.horizontal = true ∨ other.leastHeight ≤ 0) :
    other.mainSpace = container.mainSpace := by
  cases horizontal : container.axes.horizontal with
  | true => exact raised.mainSpace horizontal
  | false =>
      have least := same.resolve_left (by simp [horizontal])
      obtain ⟨before, after⟩ := raised.mainSpace_column horizontal
      rw [before, after, not_positive least]

theorem crossSpace_eq (raised : container.Raised other)
    (same : container.axes.horizontal = false ∨ other.leastHeight ≤ 0) :
    other.crossSpace = container.crossSpace := by
  cases horizontal : container.axes.horizontal with
  | false => exact raised.crossSpace horizontal
  | true =>
      have least := same.resolve_left (by simp [horizontal])
      obtain ⟨before, after⟩ := raised.crossSpace_row horizontal
      rw [before, after, not_positive least]

theorem definite (raised : container.Raised other) (column : container.axes.horizontal = false)
    (least : 0 < other.leastHeight) : container.Definite other other.leastHeight :=
  ⟨raised.alike, (raised.mainSpace_column column).1,
    (raised.mainSpace_column column).2.trans (positive least)⟩

theorem height_eq (raised : container.Raised other) {mainSize crossSize height : Int}
    (laid : (container.finalFrame mainSize crossSize).height = some height) :
    height = max 0 (if container.axes.horizontal then crossSize else mainSize) := by
  simp only [finalFrame, Limits.holdHeight, Limits.hold] at laid
  rw [raised.height, raised.minHeight, raised.maxHeight, Option.getD_none,
    Option.some.injEq] at laid
  exact laid.symm

theorem finalFrame_eq (raised : container.Raised other) {mainSize crossSize height : Int}
    (laid : (container.finalFrame mainSize crossSize).height = some height)
    (le : other.leastHeight ≤ height) :
    other.finalFrame mainSize crossSize = container.finalFrame mainSize crossSize := by
  have content := raised.height_eq laid
  have same : max 0 (other.limits.holdHeight
      (if container.axes.horizontal then crossSize else mainSize)) = height := by
    simp only [leastHeight] at le
    simp only [Limits.holdHeight, Limits.hold]
    rw [raised.maxHeight']
    cases given : other.limits.minHeight with
    | none => exact content.symm
    | some size =>
        rw [given, Option.getD_some] at le
        dsimp only
        omega
  have before : container.finalFrame mainSize crossSize =
      { container.frame with height := some height } := by
    rw [← laid]
    rfl
  rw [before]
  simp only [finalFrame]
  rw [raised.frame, raised.height, raised.alike.axes, Option.getD_none, same]

/-- Lines of a row stand where they stood: the minimum height leaves nothing to share,
and lines that start from the far end start from it. -/
theorem spreadLines_row (raised : container.Raised other) {lines lines' : List FilledLine}
    (alike : List.Forall₂ (Line.AlignedAlike same) lines lines') {crossSize : Int}
    (row : container.axes.horizontal = true) (le : other.leastHeight ≤ max 0 crossSize)
    (place : container.style.wrap ≠ .wrapReverse ∨ other.leastHeight = max 0 crossSize) :
    List.Forall₂ (SpreadAlike same) (Line.spreadLines container crossSize lines)
      (Line.spreadLines other crossSize lines') := by
  by_cases least : other.leastHeight ≤ 0
  · exact Line.spreadLines_alike alike raised.alike.wrap raised.alike.crossGap
      (raised.crossSpace_eq (.inr least)) crossSize
  · obtain ⟨before, after⟩ := raised.crossSpace_row row
    rw [positive (Int.not_le.1 least)] at after
    apply Line.spreadLines_alike_of_free alike raised.alike.wrap raised.alike.crossGap
    · rw [before, after, Option.getD_none, Option.getD_some]
      omega
    · intro reversed
      rw [before, after, Option.getD_none, Option.getD_some]
      have full := place.resolve_left (not_not_intro reversed)
      omega

end Raised

/-! ## When a minimum height has no effect -/

/-- A line of a column that a definite main size of `least` changes nothing on: it is
exactly as large, and its items fill it; or it starts where the size does not matter,
and none of its items can shrink. -/
def Steady (container : Container) (least height : Int) (filled : FilledLine) : Prop :=
  (least = height ∧
    (filled.line.flex filled.items none container.mainGap).1.used = filled.line.main) ∨
  (container.axes.reversed = false ∧ Line.Unshrinking container.mainGap filled)

instance (container : Container) (least height : Int) (filled : FilledLine) :
    Decidable (container.Steady least height filled) :=
  inferInstanceAs (Decidable ((_ ∧ _) ∨ (_ ∧ _)))

/-- A minimum height of `least` has no effect on measured items in layout order.  A row
does not read it unless its lines start from the far end.  The items of a column must
stay on one line, and that line must be steady. -/
def Neutral (container : Container) (least height : Int) (sorted : List Item) : Prop :=
  if container.axes.horizontal then container.style.wrap ≠ .wrapReverse ∨ least = height
  else
    (Line.breakAll { container.breaking with available := some least } sorted).length ≤ 1 ∧
    ∀ filled ∈ Line.breakAll container.breaking sorted, container.Steady least height filled

instance (container : Container) (least height : Int) (sorted : List Item) :
    Decidable (container.Neutral least height sorted) := by
  simp only [Neutral]
  infer_instance

end Container

def Style.BasisFixed (resolve : Resolver) (style : Style) : Prop :=
  ∀ length reference, style.basis = .length length →
    resolve style length reference = resolve style length none

namespace Item

variable {resolve : Resolver} {container other : Container}

theorem basisAlike_of_mainSpace (alike : container.Alike other)
    (space : other.mainSpace = container.mainSpace) (style : Style) :
    BasisAlike resolve container other style := by
  intro sized
  simp only [basisOf]
  rw [alike.axes, space, alike.contentWidth]

theorem basisAlike_of_fixed (alike : container.Alike other) {style : Style}
    (fixed : style.BasisFixed resolve) : BasisAlike resolve container other style := by
  intro sized
  simp only [basisOf]
  rw [alike.axes]
  cases basis : style.basis with
  | auto => rfl
  | content => rfl
  | length length =>
      dsimp only
      rw [fixed length _ basis, fixed length (container.mainSpace.map _) basis]

theorem measureAll_fit (column : container.axes.horizontal = false) (child index : Nat)
    (kids : List Kid) :
    Run.Ensures (fun a => ∀ item ∈ a.1, item.Fit) (measureAll resolve container child index kids) := by
  have fit (child index : Nat) (box : Box) (sized laid : Frame) :
      (ofBox resolve container child index box sized laid).Fit := by
    refine ⟨?_, rfl⟩
    simp only [ofBox]
    rw [column, if_neg Bool.false_ne_true]
    exact Pixel.inRange_saturate _
  have first (child index : Nat) (kid : Kid) :
      Run.Ensures (fun a => a.1.Fit) (measure resolve container child index kid) := by
    simp only [measure]
    rw [column, if_neg Bool.false_ne_true]
    exact Run.ensures_bind (Run.ensures_true _) fun _ _ => Run.ensures_pure (fit _ _ _ _ _)
  induction kids generalizing child index with
  | nil => exact Run.ensures_pure fun _ member => absurd member List.not_mem_nil
  | cons kid rest ih =>
      rw [measureAll]
      split
      · refine Run.ensures_bind (first child index kid) ?_
        intro a here
        refine Run.ensures_bind (ih (child + 1) (index + 1)) ?_
        intro b later
        exact Run.ensures_pure (List.forall_mem_cons.2 ⟨here, later⟩)
      · exact Run.ensures_bind (ih (child + 1) index) fun b later => Run.ensures_pure later

end Item

namespace Container

variable {container other : Container}

/-- **Lines that a minimum height has no effect on are placed alike.** -/
theorem Raised.lines_alike (raised : container.Raised other) {height : Int} {items : List Item}
    (neutral : other.leastHeight ≤ 0 ∨
      container.Neutral other.leastHeight height (Item.sortByOrder items))
    (fit : container.axes.horizontal = false → ∀ item ∈ items, item.Fit)
    (tall : container.axes.horizontal = false → height = max 0
      (Line.mainExtent (Line.breakAll container.breaking (Item.sortByOrder items))))
    (le : other.leastHeight ≤ height) :
    Line.Lines (Line.PlacedAlike same True container other)
      (Line.breakAll container.breaking (Item.sortByOrder items))
      (Line.breakAll other.breaking (Item.sortByOrder items)) := by
  -- Only a column with a positive minimum gets another main size by it.
  by_cases flat : container.axes.horizontal = true ∨ other.leastHeight ≤ 0
  · have space := raised.mainSpace_eq flat
    have breaking : other.breaking = container.breaking := by
      simp only [breaking]
      rw [raised.alike.wrap, raised.alike.mainGap, space]
    rw [breaking]
    exact Line.lines_same raised.alike space _
  · obtain ⟨column, positive⟩ := not_or.1 flat
    rw [Bool.not_eq_true] at column
    have definite := raised.definite column (Int.not_le.1 positive)
    have neutral := neutral.resolve_left positive
    simp only [Neutral] at neutral
    rw [column, if_neg Bool.false_ne_true] at neutral
    obtain ⟨unbroken, steady⟩ := neutral
    have single : (Line.breakAll container.breaking (Item.sortByOrder items)).length ≤ 1 :=
      Line.length_breakAll_of_unbroken (.inr definite.indefinite) _
    have breaking : other.breaking =
        { container.breaking with available := some other.leastHeight } := by
      simp only [Container.breaking]
      rw [raised.alike.wrap, raised.alike.mainGap, definite.definite]
    have summed := Line.main_breakAll container.breaking (Item.sortByOrder items)
    have whole := Line.items_flatMap_breakAll container.breaking (Item.sortByOrder items)
    rw [← breaking] at unbroken
    rw [Line.breakAll_unbroken (show other.breaking.gap = container.breaking.gap from
      raised.alike.mainGap) single unbroken]
    generalize Line.breakAll container.breaking (Item.sortByOrder items) = lines at *
    -- The items stay on one line, so there is one line to compare at most.
    match lines with
    | [] => exact .nil
    | [filled] =>
        refine .cons ?_ .nil
        have own : height = max 0 filled.line.main := by
          have extent := tall column
          simp only [Line.mainExtent, List.foldl_cons, List.foldl_nil] at extent
          omega
        have fits : ∀ item ∈ filled.items, item.Fit := by
          intro item member
          refine fit column item ((Item.sortByOrder_perm items).mem_iff.1 ?_)
          rw [← whole]
          simpa using member
        rcases steady filled List.mem_cons_self with ⟨exact_, full⟩ | ⟨forward, rigid⟩
        · exact Line.placedAlike_of_full definite (by omega) full
        · refine Line.placedAlike_of_rigid raised.alike rigid fits
            (summed filled List.mem_cons_self) ?_ ?_ forward
          · rw [definite.indefinite]
            exact Int.le_refl _
          · rw [definite.definite]
            exact show other.leastHeight ≤ filled.line.main by omega
    | _ :: _ :: _ =>
        simp at single

theorem Raised.spreads_alike {flow flow' : Flow} (raised : flow.container.Raised flow'.container)
    (alike : List.Forall₂ (Line.AlignedAlike same) flow.lines flow'.lines) {height : Int}
    (laid : (flow.container.finalFrame flow.mainSize flow.crossSize).height = some height)
    (le : flow'.container.leastHeight ≤ height)
    (place : flow'.container.leastHeight ≤ 0 ∨ (flow.container.axes.horizontal = true →
      flow.container.style.wrap ≠ .wrapReverse ∨ flow'.container.leastHeight = height)) :
    SpreadsAlike same flow flow' := by
  have crossSize := Flow.crossSize_alike alike raised.alike.crossGap
  apply Line.lines_of_forall₂
  rw [crossSize]
  by_cases flat : flow.container.axes.horizontal = false ∨ flow'.container.leastHeight ≤ 0
  · exact Line.spreadLines_alike alike raised.alike.wrap raised.alike.crossGap
      (raised.crossSpace_eq flat) _
  · obtain ⟨row, positive⟩ := not_or.1 flat
    rw [Bool.not_eq_false] at row
    have content := raised.height_eq laid
    rw [if_pos row] at content
    exact raised.spreadLines_row alike row (content ▸ le)
      (content ▸ (place.resolve_left positive) row)

theorem Raised.basis_alike {resolve : Resolver} (raised : container.Raised other) {style : Style}
    (basis : container.axes.horizontal = true ∨ other.leastHeight ≤ 0 ∨ style.BasisFixed resolve) :
    Item.BasisAlike resolve container other style := by
  rcases basis with row | least | fixed
  · exact Item.basisAlike_of_mainSpace raised.alike (raised.mainSpace_eq (.inl row)) _
  · exact Item.basisAlike_of_mainSpace raised.alike (raised.mainSpace_eq (.inr least)) _
  · exact Item.basisAlike_of_fixed raised.alike fixed

theorem Neutral.row {least height : Int} {sorted : List Item}
    (neutral : container.Neutral least height sorted) (row : container.axes.horizontal = true) :
    container.style.wrap ≠ .wrapReverse ∨ least = height := by
  simp only [Neutral] at neutral
  rwa [if_pos row] at neutral

section

variable {resolve : Resolver} [resolve.OrderBlind] {style style' : Style} {frame : Frame}
  {available : Int} {kids : List Kid} {log mid after : CallLog} {height : Int}

/-- **A container that a minimum height has no effect on is laid out the same.** -/
theorem Raised.layOut_eq
    (raised : (prepare resolve style frame available).Raised (prepare resolve style' frame available))
    (tracks : same.Tracks (fun _ kid kid' => kid.Enters Coupling.exact same kid') 0 0 kids kids)
    (basis : ∀ kid ∈ kids, kid.box.participates = true →
      (prepare resolve style frame available).axes.horizontal = true ∨
        (prepare resolve style' frame available).leastHeight ≤ 0 ∨
        kid.box.style.BasisFixed resolve)
    {result : Fragment}
    (done : (layOut resolve style frame kids available).outcome log = (.ok result, after))
    (laid : result.frame.height = some height)
    (le : (prepare resolve style' frame available).leastHeight ≤ height)
    (neutral : (prepare resolve style' frame available).leastHeight ≤ 0 ∨
      Run.Succeeds (fun measured => (prepare resolve style frame available).Neutral
          (prepare resolve style' frame available).leastHeight height (Item.sortByOrder measured.1))
        (Item.measureAll resolve (prepare resolve style frame available) 0 0 kids) log) :
    (layOut resolve style' frame kids available).outcome log = (.ok result, after) := by
  refine layOut_rerun rfl rfl raised.alike tracks
    (fun kid member participates => raised.basis_alike (basis kid member participates)) done ?_ ?_ ?_
  · intro flow items sized start ends measured kept
    rw [ends] at laid
    have content := raised.height_eq laid
    refine raised.lines_alike ?_ (fun column => Item.measureAll_fit column 0 0 kids _ _ _ measured)
      (fun column => ?_) le
    · exact neutral.imp_right fun succeeds => succeeds.holds measured
    · rw [column, if_neg Bool.false_ne_true] at content
      rw [← Line.mainExtent_congr kept fun _ _ placed => placed.main]
      exact content
  · intro flow flow' mid _ at_ at' ends alike
    rw [ends] at laid
    have place : (prepare resolve style' frame available).leastHeight ≤ 0 ∨
        ((prepare resolve style frame available).axes.horizontal = true →
          (prepare resolve style frame available).style.wrap ≠ .wrapReverse ∨
            (prepare resolve style' frame available).leastHeight = height) :=
      neutral.imp_right fun ⟨_, _, _, holds⟩ => holds.row
    rw [← at_, ← at'] at raised place
    rw [← at_] at laid
    rw [← at'] at le
    exact raised.spreads_alike alike laid le place
  · intro mainSize crossSize ends
    rw [ends] at laid ⊢
    exact raised.finalFrame_eq laid le

end

end Container

namespace Box

def withMinHeight (box : Box) (length : Length) : Box :=
  { box with style := box.style.withMinHeight length }

/-- **A minimum height that does not bind and has no other effect changes nothing.**  A
flex container of `auto` height, without limits on it, is laid out.  Laid out again with
a minimum content height no larger than the height it got, it has the same result and
the same calls, if the minimum is zero or has no effect on its measured items; in a
column, no item may refer to the minimum for its flex basis. -/
theorem layOutFlex_minHeight (host : Host) (box : Box) (frame : Frame) (fragments : List Fragment)
    (available : Int) (length : Length) (entry : frame.height = none)
    (auto : box.style.height = none) (noLeast : box.style.minHeight = none)
    (noMost : box.style.maxHeight = none) {log after : CallLog} {result : Fragment} {height : Int}
    (done : (box.layOutFlex host.environment ⟨frame, fragments⟩ available).outcome log =
      (.ok result, after))
    (laid : result.frame.height = some height) :
    let container := Container.prepare host.resolve box.style frame available
    let least := (Container.prepare host.resolve (box.style.withMinHeight length) frame
      available).leastHeight
    least ≤ height →
    (least ≤ 0 ∨
      (container.axes.horizontal = true ∨ ∀ child ∈ box.children, child.participates = true →
        child.style.BasisFixed host.resolve) ∧
      Run.Succeeds (fun measured =>
          container.Neutral least height (Item.sortByOrder measured.1))
        (Item.measureAll host.resolve container 0 0
          (Kid.ofBoxes host.environment box.children fragments)) log) →
    ((box.withMinHeight length).layOutFlex host.environment ⟨frame, fragments⟩ available).outcome log =
      (.ok result, after) := by
  intro container least le neutral
  have raised := Container.prepare_raised available
    (host.resolve_withMinHeight box.style length) entry auto noLeast noMost
  have tracks := Kid.ofBoxes_tracks host.exact_keeps box.children 0 (stale_refl box.children fragments)
  refine raised.layOut_eq tracks (fun kid member participates => ?_) done laid le
    (neutral.imp_right And.right)
  rcases neutral with least | ⟨row | fixed, -⟩
  · exact .inr (.inl least)
  · exact .inl row
  · refine .inr (.inr (fixed kid.box ?_ participates))
    rw [← Kid.map_box_ofBoxes host.environment box.children fragments]
    exact List.mem_map_of_mem member

/-- A column whose two items cannot shrink, and a minimum below their height. -/
theorem layOutFlex_minHeight_column :
    let block : Box := { style := { height := some (.px 30), shrink := 0 } }
    let box : Box :=
      { kind := .flex, style := { direction := .column }, children := [block, block] }
    let container := Container.prepare ({} : Host).resolve box.style {} 100
    let least := (Container.prepare ({} : Host).resolve (box.style.withMinHeight (.px 40)) {}
      100).leastHeight
    ∃ result after,
      (box.layOutFlex ({} : Host).environment {} 100).outcome #[] = (.ok result, after) ∧
      result.frame.height = some 60 ∧ least = 40 ∧
      (∀ child ∈ box.children, child.style.BasisFixed ({} : Host).resolve) ∧
      Run.Succeeds (fun measured => container.Neutral least 60 (Item.sortByOrder measured.1))
        (Item.measureAll ({} : Host).resolve container 0 0
          (Kid.ofBoxes ({} : Host).environment box.children [])) #[] ∧
      ((box.withMinHeight (.px 40)).layOutFlex ({} : Host).environment {} 100).outcome #[] =
        (.ok result, after) := by
  intro block box container least
  have whole : Run.Succeeds (fun result => result.frame.height = some 60)
      (box.layOutFlex ({} : Host).environment {} 100) #[] := by
    simp only [layOutFlex, Container.layOut]
    rw [Container.flow_eq_insertionSort]
    decide +kernel
  have forty : least = 40 := by decide +kernel
  have fixed : ∀ child ∈ box.children, child.style.BasisFixed ({} : Host).resolve := by
    intro child member length reference basis
    have auto : child.style.basis = .auto := by
      simp only [box, block, List.mem_cons, List.not_mem_nil, or_false, or_self] at member
      rw [member]
    rw [auto] at basis
    exact Basis.noConfusion basis
  have neutral : Run.Succeeds
      (fun measured => container.Neutral least 60 (Item.sortByOrder measured.1))
      (Item.measureAll ({} : Host).resolve container 0 0
        (Kid.ofBoxes ({} : Host).environment box.children [])) #[] := by
    have inserted : Run.Succeeds
        (fun measured => container.Neutral least 60 (measured.1.insertionSort Item.Precedes))
        (Item.measureAll ({} : Host).resolve container 0 0
          (Kid.ofBoxes ({} : Host).environment box.children [])) #[] := by
      decide +kernel
    obtain ⟨measured, after, ran, holds⟩ := inserted
    obtain ⟨numbered, -⟩ := Item.measureAll_numbered 0 0 _ _ _ _ ran
    refine ⟨measured, after, ran, ?_⟩
    dsimp only
    rwa [Item.sortByOrder_eq_insertionSort (numbered.ordered.imp fun lt => lt.2)]
  obtain ⟨result, after, done, laid⟩ := whole
  refine ⟨result, after, done, laid, forty, fixed, neutral, ?_⟩
  exact layOutFlex_minHeight {} box {} [] 100 (.px 40) rfl rfl rfl rfl done laid
    (by rw [show (Container.prepare _ _ _ _).leastHeight = 40 from forty]; decide)
    (.inr ⟨.inr fun child member _ => fixed child member, neutral⟩)

/-- A minimum height of 40 is the definite height of a column that wraps, so its two
items of height 30 no longer stay on one line, and the column gets lower by it. -/
theorem layOutFlex_minHeight_breaks :
    let block : Box := { style := { height := some (.px 30) } }
    let box : Box :=
      { kind := .flex
        style := { direction := .column, wrap := .wrap, width := some (.px 100) }
        children := [block, block] }
    (Container.prepare ({} : Host).resolve (box.style.withMinHeight (.px 40)) {} 100).leastHeight =
      40 ∧
    Run.Succeeds (fun result => result.frame.height = some 60 ∧
        result.children.map (fun child => (child.frame.x, child.frame.y)) = [(0, 0), (0, 30)])
      (box.layOutFlex ({} : Host).environment {} 100) #[] ∧
    Run.Succeeds (fun result => result.frame.height = some 40 ∧
        result.children.map (fun child => (child.frame.x, child.frame.y)) = [(0, 0), (50, 0)])
      ((box.withMinHeight (.px 40)).layOutFlex ({} : Host).environment {} 100) #[] := by
  intro block box
  simp only [layOutFlex, Container.layOut]
  rw [Container.flow_eq_insertionSort, Container.flow_eq_insertionSort]
  refine ⟨?_, ?_, ?_⟩ <;> decide +kernel

end Box

end FlexLayout
