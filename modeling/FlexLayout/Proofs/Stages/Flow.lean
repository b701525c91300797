/-
# FlexLayout.Proofs.Stages.Flow -- two containers side by side

The stages together.  Two containers that follow the same rules measure, break, flex
and place corresponding children alike, as long as their lines correspond
(`flow_coupled`); and if their lines come to stand in the same places across the main
axis, every child that has a counterpart ends where the counterpart does
(`align_coupled`), as far as the two stand abreast.
-/
import FlexLayout.Layout
import FlexLayout.Proofs.Stages.Align
import FlexLayout.Proofs.Stages.Breaking
import FlexLayout.Proofs.Stages.Order

namespace FlexLayout

set_option autoImplicit false

open Pairing

variable {p : Pairing} {Γ : Coupling} {a : Prop} {container other : Container}

/-! Gaps are not negative. -/

theorem Style.gapPixels_nonneg (style : Style) (resolve : Resolver) (gap : Option Length)
    (reference : Option Int) : 0 ≤ style.gapPixels resolve gap reference := by
  simp only [Style.gapPixels]
  cases gap with
  | none => exact Int.le_refl 0
  | some length => exact Int.le_max_left _ _

theorem Container.mainGap_nonneg (resolve : Resolver) (style : Style) (frame : Frame)
    (available : Int) : 0 ≤ (prepare resolve style frame available).mainGap := by
  simp only [prepare, Style.gaps]
  split <;> exact style.gapPixels_nonneg _ _ _

theorem Container.crossGap_nonneg (resolve : Resolver) (style : Style) (frame : Frame)
    (available : Int) : 0 ≤ (prepare resolve style frame available).crossGap := by
  simp only [prepare, Style.gaps]
  split <;> exact style.gapPixels_nonneg _ _ _

/-- The positions of the children that have an item on some lines. -/
def childrenOf (lines : List FilledLine) : List Nat :=
  (lines.flatMap FilledLine.items).map Item.child

/-- Two containers whose items are placed along the main axis. -/
structure FlowAlike (Γ : Coupling) {p : Pairing} (τ : p.Tracking) (a : Prop) (flow flow' : Flow) :
    Prop where
  lines : Line.Lines (Line.AlignedAlike p) flow.lines flow'.lines
  tracks : τ.Holds (Among Γ (childrenOf flow.lines) (Moved a flow.container.axes)) flow.kids
    flow'.kids
  nodup : (childrenOf flow.lines).Nodup
  seated : ∀ item ∈ flow.lines.flatMap FilledLine.items, item.Seated flow.kids
  sound : ∀ filled ∈ flow.lines, Line.Sound filled
  weightless : ∀ filled ∈ flow.lines, p.Weightless filled.items

namespace Container

theorem sorted_facts {kids : List Kid} {items : List Item} (numbered : Item.Numbered 0 0 kids items) :
    ((Item.sortByOrder items).map Item.child).Nodup ∧
      ∀ item ∈ Item.sortByOrder items, item ∈ items ∧ item.Seated kids := by
  have perm := Item.sortByOrder_perm items
  refine ⟨?_, fun item member => ?_⟩
  · refine ((perm.map Item.child).nodup_iff).2 ?_
    refine List.pairwise_map.2 (numbered.ordered.imp fun lt => ?_)
    exact Nat.ne_of_lt lt.1
  · have among := perm.mem_iff.1 member
    obtain ⟨kid, found, -⟩ := numbered.kid item among
    rw [Nat.sub_zero] at found
    exact ⟨among, (List.getElem?_eq_some_iff.1 found).1⟩

theorem weightless_placed {lines placed : List FilledLine}
    (kept : List.Forall₂ Line.PlacedFrom lines placed)
    (weightless : ∀ filled ∈ lines, p.Weightless filled.items) :
    ∀ filled ∈ placed, p.Weightless filled.items := by
  intro after member item among drop
  obtain ⟨filled, there, from_⟩ := exists_of_mem_right kept member
  obtain ⟨source, inside, child, flow⟩ := exists_of_mem_right from_.items among
  exact flow.trans (weightless filled there source inside (child ▸ drop))

/-- Measuring numbers the items, so sorting them may be done by insertion. -/
theorem flow_eq_insertionSort (resolve : Resolver) (style : Style) (frame : Frame) (kids : List Kid)
    (available : Int) :
    flow resolve style frame kids available = (do
      let container := prepare resolve style frame available
      let (items, kids) ← Item.measureAll resolve container 0 0 kids
      let (lines, kids) ← container.arrange 0 (items.insertionSort Item.Precedes) kids
      return { container := container, lines := lines, kids := kids }) := by
  simp only [flow]
  apply Run.bind_congr_of_ensures (Item.measureAll_numbered 0 0 kids)
  rintro ⟨items, sized⟩ ⟨numbered, -⟩
  dsimp only
  rw [Item.sortByOrder_eq_insertionSort (numbered.ordered.imp fun lt => lt.2)]

/-- **Lines that correspond are placed alike.** -/
theorem arrange_coupled (horizontal : other.axes.horizontal = container.axes.horizontal)
    {items sorted others : List Item} {kids kids' : List Kid} {τ : p.Tracking}
    (tracks : τ.Holds (Among Γ (items.map Item.child) (Measured Γ container.axes)) kids kids')
    (perm : sorted.Perm items) (nodup : (sorted.map Item.child).Nodup)
    (seated : ∀ item ∈ sorted, item.Seated kids) (weightless : p.Weightless sorted)
    (alike : Line.Lines (Line.PlacedAlike p a container other)
      (Line.breakAll container.breaking sorted) (Line.breakAll other.breaking others))
    (dropped : ∀ i, p.keep i = false → Γ.drops) :
    Γ.Holds (fun made made' =>
        FlowAlike Γ τ a ⟨container, made.1, made.2⟩ ⟨other, made'.1, made'.2⟩)
      (container.arrange 0 sorted kids) (other.arrange 0 others kids') := by
  have all := Line.items_flatMap_breakAll container.breaking sorted
  have unplaced : Line.Unplaced Γ p container.axes
      (Among Γ (items.map Item.child) (Measured Γ container.axes)) kids
      (Line.breakAll container.breaking sorted) := by
    refine ⟨?_, by rwa [all], by rwa [all], ?_⟩
    · intro filled member item among
      apply weightless item
      rw [← all]
      exact List.mem_flatMap.2 ⟨filled, member, among⟩
    · rw [all]
      intro item member kid kid' holds
      exact (among_of_mem ((perm.map Item.child).mem_iff.1 (List.mem_map_of_mem member))).1 holds
  have placed := Line.placeAll_coupled horizontal alike 0 0 tracks unplaced dropped
  simp only [arrange]
  refine Γ.mono (Γ.ensure placed (Line.placeAll_ensures container 0 unplaced.seated)
    (Run.ensures_true _)) ?_
  rintro ⟨lines, laid⟩ ⟨lines', laid'⟩ ⟨⟨aligned, tracks'⟩, ⟨kept, length⟩, -⟩
  have children := Line.map_child_placed kept
  rw [all] at children tracks'
  dsimp only at children tracks' length aligned
  refine ⟨aligned, ?_, ?_, ?_, Line.sound_placed kept (Line.sound_breakAll _ _),
    weightless_placed kept unplaced.weightless⟩
  · simp only [childrenOf]
    rw [children]
    exact τ.mono tracks' fun _ _ _ _ holds =>
      putAll_putAll (fun _ inside => ((perm.map Item.child).mem_iff).2 inside) holds
  · simp only [childrenOf]
    rw [children]
    exact nodup
  · apply Line.seated_of_children children
    intro item member
    exact (seated item member).of_length length

/-- **Measured items that correspond are placed alike, in layout order.** -/
theorem arrange_measured (horizontal : other.axes.horizontal = container.axes.horizontal)
    (order : p.order = id) {items : List Item}
    {τ : p.Tracking} {kids kids' sized sized' : List Kid} (numbered : Item.Numbered 0 0 kids items)
    (numbered' : Item.Numbered 0 0 kids' (p.items items)) (length : sized.length = kids.length)
    (tracks : τ.Holds (Among Γ (items.map Item.child) (Measured Γ container.axes)) sized sized')
    (weightless : p.Weightless items)
    (alike : Line.Lines (Line.PlacedAlike p a container other)
      (Line.breakAll container.breaking (Item.sortByOrder items))
      (Line.breakAll other.breaking (p.items (Item.sortByOrder items))))
    (dropped : ∀ i, p.keep i = false → Γ.drops) :
    Γ.Holds (fun made made' =>
        FlowAlike Γ τ a ⟨container, made.1, made.2⟩ ⟨other, made'.1, made'.2⟩)
      (container.arrange 0 (Item.sortByOrder items) sized)
      (other.arrange 0 (Item.sortByOrder (p.items items)) sized') := by
  obtain ⟨nodup, sorted⟩ := sorted_facts numbered
  rw [Item.sortByOrder_items order (numbered.ordered.imp fun lt => lt.2)
    (numbered'.ordered.imp fun lt => lt.2)]
  refine arrange_coupled horizontal tracks (Item.sortByOrder_perm items) nodup (fun item member => ?_)
    (fun item member => weightless item (sorted item member).1) alike dropped
  exact (sorted item member).2.of_length length

/-- What holds of two containers and their children on entry. -/
structure EntryAlike (Γ : Coupling) (p : Pairing) (resolve : Resolver) (container other : Container)
    (kids kids' : List Kid) : Prop where
  akin : container.Akin other
  tracks : p.Tracks (fun _ kid kid' => kid.Enters Γ p kid') 0 0 kids kids'
  numbers : p.Numbers 0 0 0 (kids.map Kid.box)
  line : p.line 0 = 0
  order : p.order = id
  basis : ∀ kid ∈ kids, kid.box.participates = true →
    Item.BasisAlike resolve container other kid.box.style
  /-- Children without a counterpart take no space. -/
  out : ∀ (i : Nat) (kid : Kid), kids[i]? = some kid → p.keep i = false → kid.box.outOfFlow = true
  lines : ∀ items : List Item, p.Weightless items →
    Line.Lines (Line.PlacedAlike p True container other) (Line.breakAll container.breaking items)
      (Line.breakAll other.breaking (p.items items))
  dropped : ∀ i, p.keep i = false → Γ.drops

/-- **Containers that are alike on entry place their children alike.** -/
theorem flow_coupled {resolve : Resolver} [resolve.OrderBlind] {style style' : Style} {frame frame' : Frame}
    {available : Int} {kids kids' : List Kid}
    (entry : EntryAlike Γ p resolve (prepare resolve style frame available)
      (prepare resolve style' frame' available) kids kids') :
    Γ.Holds (fun a b => FlowAlike Γ p.aligned True a b ∧ a.container = prepare resolve style frame available ∧
        b.container = prepare resolve style' frame' available)
      (flow resolve style frame kids available) (flow resolve style' frame' kids' available) := by
  simp only [flow]
  generalize prepare resolve style frame available = container at entry ⊢
  generalize prepare resolve style' frame' available = other at entry ⊢
  have measured := Item.measureAll_coupled Γ entry.akin entry.line entry.tracks entry.numbers
    entry.dropped entry.basis
  refine Γ.bind (Γ.ensure measured (Item.measureAll_numbered 0 0 kids)
    (Item.measureAll_numbered 0 0 kids')) ?_
  rintro ⟨items, sized⟩ ⟨items', sized'⟩ ⟨⟨same, tracks⟩, ⟨numbered, length⟩, numbered', -⟩
  dsimp only at same tracks numbered length numbered' ⊢
  subst same
  have weightless : p.Weightless items := by
    intro item member drop
    obtain ⟨kid, found, flow⟩ := numbered.kid item member
    rw [Nat.sub_zero] at found
    exact flow.trans (entry.out _ kid found drop)
  have sorted : p.Weightless (Item.sortByOrder items) := fun item member =>
    weightless item ((Item.sortByOrder_perm items).mem_iff.1 member)
  refine Γ.bind (arrange_measured (τ := p.aligned) entry.akin.horizontal entry.order numbered numbered'
    length tracks weightless (entry.lines _ sorted) entry.dropped) ?_
  intro a b placed
  exact Γ.pure ⟨placed, rfl, rfl⟩

/-- Lines that stand in the same places across the main axis. -/
def SpreadsAlike (p : Pairing) (flow flow' : Flow) : Prop :=
  Line.Lines (SpreadAlike p) (Line.spreadLines flow.container flow.crossSize flow.lines)
    (Line.spreadLines flow'.container flow'.crossSize flow'.lines)

theorem map_items_stackLines (reversed : Bool) (gap share pos remainder : Int)
    (lines : List FilledLine) :
    (Line.stackLines reversed gap share pos remainder lines).map FilledLine.items =
      lines.map FilledLine.items := by
  induction lines generalizing pos remainder with
  | nil => rfl
  | cons filled rest ih => rw [Line.stackLines, List.map_cons, List.map_cons, ih]

theorem flatMap_items_spreadLines (container : Container) (crossSize : Int)
    (lines : List FilledLine) :
    (Line.spreadLines container crossSize lines).flatMap FilledLine.items =
      lines.flatMap FilledLine.items := by
  rw [List.flatMap_def, List.flatMap_def]
  exact congrArg List.flatten (map_items_stackLines _ _ _ _ _ lines)

/-- **Every child that has a counterpart ends where that does**, as far as they stand
abreast. -/
theorem align_coupled (resolve : Resolver) [resolve.OrderBlind] {flow flow' : Flow} {τ : p.Tracking}
    (akin : flow.container.Akin flow'.container) (flows : FlowAlike Γ τ a flow flow')
    (spread : SpreadsAlike p flow flow') (dropped : ∀ i, p.keep i = false → Γ.drops) :
    Γ.Holds (τ.Holds (Among Γ (childrenOf flow.lines) (Ended a flow.container.axes)))
      (flow.container.align resolve flow.crossSize flow.lines flow.kids)
      (flow'.container.align resolve flow'.crossSize flow'.lines flow'.kids) := by
  let entries := seats (Line.spreadLines flow.container flow.crossSize flow.lines)
  have positions : (entries.map fun entry => entry.2.child) = childrenOf flow.lines := by
    simp only [childrenOf]
    rw [← flatMap_items_spreadLines flow.container flow.crossSize flow.lines, ← map_snd_seats,
      List.map_map]
    rfl
  have aligned := alignAll_coupled (Γ := Γ) (a := a) resolve akin flows.tracks (seats_alike spread)
    (by rw [positions]; exact flows.nodup) ?_ ?_ dropped
  · refine Γ.mono aligned fun kids kids' tracks => τ.mono tracks ?_
    intro position kid kid' _ holds
    rw [positions] at holds
    exact putAll_putAll (fun _ inside => inside) holds
  · intro entry member
    apply flows.seated entry.2
    rw [← flatMap_items_spreadLines flow.container flow.crossSize flow.lines, ← map_snd_seats]
    exact List.mem_map_of_mem member
  · intro entry member kid kid' holds
    refine (among_of_mem ?_).1 holds
    rw [← positions]
    exact List.mem_map.2 ⟨entry, member, rfl⟩

end Container

namespace Pairing

/-- The entries for children that have a counterpart, of a list with an entry for
each child from a position on. -/
def kept {α : Type} (p : Pairing) : Nat → List α → List α
  | _, [] => []
  | child, a :: rest => if p.keep child then a :: p.kept (child + 1) rest else p.kept (child + 1) rest

theorem kept_same {α : Type} (child : Nat) (list : List α) : same.kept child list = list := by
  induction list generalizing child with
  | nil => rfl
  | cons a rest ih => rw [kept, if_pos (by rfl), ih]

/-- Children that stand abreast after layout are the same. -/
theorem same_of_among {axes : Axes} (abreast : a) {positions : List Nat} {position : Nat}
    {kid kid' : Kid} (among : Among Γ positions (Ended a axes) position kid kid') :
    kid.Pair Γ Same kid' := by
  by_cases inside : position ∈ positions
  · have pair := (among_of_mem inside).1 among
    exact { pair with related := pair.related.same abreast }
  · exact (among_of_not_mem inside).1 among

theorem Tracks.map_fragment {child child' : Nat} {kids kids' : List Kid}
    (tracks : p.Tracks (fun _ kid kid' => kid.Pair Γ Same kid') child child' kids kids') :
    kids'.map Kid.fragment = p.kept child (kids.map Kid.fragment) := by
  induction tracks with
  | nil => rfl
  | keep keeps _ related _ ih =>
      rw [List.map_cons, List.map_cons, kept, if_pos keeps, ih]
      exact congrArg (· :: _) related.related
  | drop drops _ ih =>
      rw [List.map_cons, kept, if_neg (by simp [drops]), ih]

end Pairing

namespace Flow

variable {flow flow' : Flow}

/-- **Two containers whose lines stand in the same places end up with children that agree**,
as far as these stand abreast. -/
theorem close_coupled_abreast (resolve : Resolver) [resolve.OrderBlind]
    (akin : flow.container.Akin flow'.container) (flows : FlowAlike Γ p.aligned a flow flow')
    (spread : Container.SpreadsAlike p flow flow') (dropped : ∀ i, p.keep i = false → Γ.drops) :
    Γ.Holds (fun result result' =>
        result.frame = flow.container.finalFrame flow.mainSize flow.crossSize ∧
        result'.frame = flow'.container.finalFrame flow'.mainSize flow'.crossSize ∧
        ∃ kids kids', result.children = kids.map Kid.fragment ∧
          result'.children = kids'.map Kid.fragment ∧
          p.aligned.Holds (Among Γ (childrenOf flow.lines) (Ended a flow.container.axes)) kids kids')
      (flow.close resolve) (flow'.close resolve) := by
  simp only [close]
  apply Γ.bind (Container.align_coupled resolve akin flows spread dropped)
  intro kids kids' tracks
  exact Γ.pure ⟨rfl, rfl, kids, kids', rfl, rfl, tracks⟩

/-- **Two containers whose lines stand in the same places end up alike.** -/
theorem close_coupled (resolve : Resolver) [resolve.OrderBlind]
    (akin : flow.container.Akin flow'.container) (flows : FlowAlike Γ p.aligned True flow flow')
    (spread : Container.SpreadsAlike p flow flow') (dropped : ∀ i, p.keep i = false → Γ.drops)
    {px py : Prop}
    (final : (flow.container.finalFrame flow.mainSize flow.crossSize).Agrees px py
      (flow'.container.finalFrame flow'.mainSize flow'.crossSize)) :
    Γ.Holds (fun result result' =>
        result.frame.Agrees px py result'.frame ∧ result'.children = p.kept 0 result.children)
      (flow.close resolve) (flow'.close resolve) := by
  refine Γ.mono (close_coupled_abreast resolve akin flows spread dropped) ?_
  rintro result result' ⟨frame, frame', kids, kids', children, children', tracks⟩
  refine ⟨frame ▸ frame' ▸ final, ?_⟩
  rw [children, children']
  exact Tracks.map_fragment (p.aligned.mono tracks fun _ _ _ _ among => same_of_among trivial among)

end Flow

end FlexLayout
