/-
# FlexLayout.Proofs.LateHeight.Asking -- what the items of a column ask for

A host that stacks nothing gives boxes no height of their own.  Then an item of a column asks
for its flex basis, or else for its specified height.  If the maximum of its style is no
smaller than these (`Box.Uncut`), it does not cut the base size (`Item.measure_uncut`), so
nothing flexes on a line of such items (`Box.Late.rests`).
-/
import FlexLayout.Proofs.LateHeight.Known

namespace FlexLayout

set_option autoImplicit false

theorem Style.contentSize_mono (style : Style) {size limit : Int} (le : size ≤ limit) (inset : Int) :
    style.contentSize size inset ≤ style.contentSize limit inset := by
  unfold Style.contentSize
  split <;> omega

/-- No size in a summable list is below the range. -/
theorem Pixel.Summable.least_of_mem {sizes : List Int} (summable : Summable sizes) {size : Int}
    (member : size ∈ sizes) : -2147483648 ≤ size := by
  have least := (summable.of_perm (List.perm_cons_erase member).symm).least
  have rest := sum_map_min_nonpos (sizes.erase size)
  rw [List.map_cons, List.sum_cons] at least
  omega

/-- The maximum height of the box is no smaller than its specified height and its flex
basis. -/
def Box.Uncut (resolve : Resolver) (box : Box) : Prop :=
  ∀ most limit, box.style.maxHeight = some most → resolve box.style most none = some limit →
    (∀ height size, box.style.height = some height → resolve box.style height none = some size →
      size ≤ limit) ∧
    ∀ basis size, box.style.basis = .length basis → resolve box.style basis none = some size →
      size ≤ limit

namespace Item

variable {resolve : Resolver} {container : Container} {box : Box}

/-- What such a box asks for, as the content size of an item that is laid out with no more
than its specified height. -/
theorem asks_le (column : container.axes.horizontal = false) (indefinite : container.mainSpace = none)
    (uncut : box.Uncut resolve) (frame : Frame) (limit : Int) :
    let sized := frame.withSizes resolve box.style container.contentWidth
    (sized.limits resolve box.style container.contentWidth).maxHeight = some limit →
      (basisOf resolve container box.style sized).2.getD (sized.height.getD 0) ≤ limit := by
  intro sized most
  obtain ⟨length, given, most⟩ := Option.bind_eq_some_iff.1 most
  obtain ⟨limit, resolved, rfl⟩ := Option.map_eq_some_iff.1 most
  obtain ⟨height, basis⟩ := uncut length limit given resolved
  have nonneg := box.style.contentSize_nonneg limit sized.verticalInset
  have specified : sized.height.getD 0 ≤ box.style.contentSize limit sized.verticalInset := by
    show (box.style.contentSize? resolve box.style.height none sized.verticalInset).getD 0 ≤ _
    cases found : box.style.contentSize? resolve box.style.height none sized.verticalInset with
    | none => exact nonneg
    | some size =>
        obtain ⟨length, given, found⟩ := Option.bind_eq_some_iff.1 found
        obtain ⟨px, resolved, rfl⟩ := Option.map_eq_some_iff.1 found
        exact box.style.contentSize_mono (height length px given resolved) _
  simp only [basisOf, Axes.mainSize?, Axes.mainInset, column, indefinite, Bool.false_eq_true, if_false,
    Option.map_none, Bool.false_or]
  split
  · cases found : sized.height with
    | none => exact nonneg
    | some size => rwa [found] at specified
  · exact specified
  · rename_i length given
    cases found : resolve box.style length none with
    | none => exact specified
    | some px =>
        have cut := box.style.contentSize_mono (basis length px given found) sized.verticalInset
        rw [Option.map_some, Option.filter_some]
        split
        · exact cut
        · exact specified

/-- A base size is cut by a maximum only. -/
theorem base_le_hypothetical (column : container.axes.horizontal = false) (child index : Nat)
    (sized laid : Frame)
    (asks : ∀ limit, (sized.limits resolve box.style container.contentWidth).maxHeight = some limit →
      (basisOf resolve container box.style sized).2.getD (laid.height.getD 0) ≤ limit)
    (range : -2147483648 ≤ (ofBox resolve container child index box sized laid).hypothetical) :
    (ofBox resolve container child index box sized laid).base ≤
      (ofBox resolve container child index box sized laid).hypothetical := by
  simp only [ofBox, hold, column, Bool.false_eq_true, if_false] at range ⊢
  cases most : (sized.limits resolve box.style container.contentWidth).maxHeight with
  | none =>
      simp only [Option.map_none]
      exact Int.le_max_left _ _
  | some limit =>
      have le := asks limit most
      rw [most] at range
      simp only [Option.map_some, Pixel.add, Pixel.saturate] at range ⊢
      omega

/-- **No maximum cuts the base size of a box that asks for no more**, where hosts give boxes
no height of their own. -/
theorem measure_uncut {host : Host} (bare : host.conduct ≠ .stack)
    (column : container.axes.horizontal = false) (indefinite : container.mainSpace = none)
    (child index : Nat) {kid : Kid} (hosted : kid.layOut = kid.box.layOut host.environment)
    (other : kid.box.kind ≠ .flex) (uncut : kid.box.Uncut host.resolve) :
    Run.Ensures (fun a => a.1.child = child ∧ (-2147483648 ≤ a.1.hypothetical → a.1.Uncut))
      (measure host.resolve container child index kid) := by
  have asks := asks_le column indefinite uncut kid.frame
  simp only [measure] at asks ⊢
  generalize kid.frame.withSizes host.resolve kid.box.style container.contentWidth = sized at asks ⊢
  rw [column, if_neg Bool.false_ne_true]
  refine Run.ensures_bind (P := fun laid => laid.frame.height.getD 0 = sized.height.getD 0) ?_
    fun laid height => Run.ensures_pure ⟨rfl, fun range => .inr (.inr ?_)⟩
  · rw [hosted, Box.layOut_of_not_flex _ _ _ _ other]
    refine Run.ensures_mapFailure (host.layOutContents_ensures _ _ _ _ (fun _ => rfl) (fun _ => rfl)
      fun stack => absurd stack bare)
  · exact base_le_hypothetical column child index sized laid.frame (fun limit most => height ▸ asks limit most)
      range

end Item

/-- **Nothing flexes in a column whose boxes ask for no more than their maxima**, where hosts
give boxes no height of their own. -/
theorem Box.Late.rests {host : Host} {box : Box} {frame : Frame} {available : Int}
    {fragments : List Fragment} (late : box.Late frame) (bare : host.conduct ≠ .stack)
    (uncut : ∀ child ∈ box.children, child.participates = true → child.Uncut host.resolve)
    {log mid : CallLog} {flow : Flow}
    (placed : (Container.flow host.resolve box.style frame
      (Kid.ofBoxes host.environment box.children fragments) available).outcome log = (.ok flow, mid))
    (summable : ∀ filled ∈ flow.lines, Pixel.Summable (Line.hypotheticals filled.items)) :
    ∀ filled ∈ flow.lines, Line.Rests filled.items := by
  obtain ⟨at_, items, sized, start, measured, arranged, -⟩ := Container.flow_ok rfl placed
  have column := late.column host.resolve available
  have all : ∀ item ∈ items, -2147483648 ≤ item.hypothetical → item.Uncut := by
    intro item member
    obtain ⟨-, _, _, -, -, uncut⟩ := Item.measureAll_each
      (P := fun _ item _ => -2147483648 ≤ item.hypothetical → item.Uncut) 0 0
      (fun kid among participates child index => by
        have inside := Kid.box_mem_of_mem_ofBoxes among
        exact Item.measure_uncut bare column (late.prepare host.resolve available).1 child index
          (Kid.layOut_of_mem_ofBoxes among) (late.plain kid.box inside participates)
          (uncut kid.box inside participates))
      _ _ _ measured item member
    exact uncut
  have flexed := Line.placeAll_flexed _ 0 _ sized _ _ _ arranged
  intro filled member
  refine .uncut fun after among => ?_
  obtain ⟨line, inside, from_⟩ := exists_of_mem_right flexed member
  obtain ⟨index, same⟩ := from_.unflexed
  obtain ⟨item, among', same⟩ := exists_of_mem_right same among
  have listed : item ∈ items := by
    refine (Item.sortByOrder_perm items).mem_iff.1 ?_
    rw [← Line.items_flatMap_breakAll
      (Container.prepare host.resolve box.style frame available).breaking (Item.sortByOrder items)]
    exact List.mem_flatMap.2 ⟨line, inside, among'⟩
  have size : after.hypothetical = item.hypothetical := (congrArg Item.hypothetical same :)
  cases flow : after.outOfFlow with
  | true => exact .inl flow
  | false =>
      refine (Line.uncut_of_unflexed same).2 (all item listed (size ▸ ?_))
      refine (summable filled member).least_of_mem (List.mem_map_of_mem (List.mem_filter.2 ⟨among, ?_⟩))
      rw [flow]
      rfl

end FlexLayout
