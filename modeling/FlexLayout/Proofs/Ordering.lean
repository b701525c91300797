/-
# FlexLayout.Proofs.Ordering -- `order` is a permutation of document order

Sorting the children of a flex container by `order` beforehand, and giving none of them
an `order`, leads to the same layout (`Box.layOutFlex_inOrder`): every child gets the
same geometry with all that is below it, at its new position.

That needs a host that refuses nothing, whatever was called before
(`Host.sure_keeps`), since children that stand in another order are measured in another
order, so the calls are others.  From measuring on, layout goes through the items in
the same order in both containers (`Container.layOut_reordered`).
-/
import FlexLayout.Proofs.Ordering.Reorder
import FlexLayout.Proofs.Relayout
import FlexLayout.Tree

namespace FlexLayout

set_option autoImplicit false

open Pairing

/-! ## Hosts that refuse nothing -/

namespace Host

variable {host : Host}

theorem refuses_of_none (kinds : host.failing = none) (calls : host.failCall = none)
    (kind : BoxKind) (position : Nat) : host.refuses kind position = false := by
  simp only [refuses]
  rw [kinds, calls]
  rfl

theorem stackKids_yields (resolve : Resolver) (left width : Int) (cursor : Int) {kids : List Kid}
    (routines : ∀ kid ∈ kids, Routine Coupling.sure kid.box kid.layOut kid.layOut) :
    ∃ stacked, (stackKids resolve left width cursor kids).Yields stacked := by
  induction kids generalizing cursor with
  | nil => exact ⟨_, Run.yields_pure _⟩
  | cons kid rest ih =>
      obtain ⟨routine, routines⟩ := List.forall_mem_cons.1 routines
      let entry := (kid.withFrame (stackedFrame resolve width kid)).fragment
      obtain ⟨fragment, -, -, yields, -⟩ := routine True True entry entry width
        (.refl True True _) (kid.box.below_refl _)
      obtain ⟨stacked, later⟩ := ih (cursor + fragment.frame.marginBoxHeight) routines
      exact ⟨_, Run.yields_bind (Run.yields_mapFailure Cause.nested yields)
        (Run.yields_bind later (Run.yields_pure _))⟩

theorem layOutContents_yields (kinds : host.failing = none) (calls : host.failCall = none)
    (kind : BoxKind) (available : Option Int) (frame : Frame) {kids : List Kid}
    (routines : ∀ kid ∈ kids, Routine Coupling.sure kid.box kid.layOut kid.layOut) :
    ∃ fragment, (host.layOutContents kind available frame kids).Yields fragment := by
  simp only [layOutContents, refuses_of_none kinds calls]
  cases host.conduct with
  | noop => exact ⟨_, Run.yields_record_bind _ fun _ => Run.yields_pure _⟩
  | leaf => exact ⟨_, Run.yields_record_bind _ fun _ => Run.yields_pure _⟩
  | stack =>
      let wide := { frame with width := frame.width <|> available }
      obtain ⟨stacked, yields⟩ := stackKids_yields host.resolve wide.padding.left
        (wide.width.getD 0) wide.padding.top routines
      exact ⟨_, Run.yields_record_bind _ fun _ => Run.yields_bind yields (Run.yields_pure _)⟩

/-- **A host that refuses nothing lays out every box**, whatever was called before. -/
theorem sure_keeps (kinds : host.failing = none) (calls : host.failCall = none) :
    Coupling.sure.Keeps host.environment := by
  apply Coupling.keeps_of_below rfl
  intro px py kind available frame other kids agrees routines
  obtain ⟨fragment, yields⟩ := layOutContents_yields kinds calls kind available frame routines
  refine ⟨fragment, fragment.moved other.x other.y, ?_, Run.yields_mapFailure _ yields,
    Run.yields_mapFailure _ ?_⟩
  · have kept := yields.of_ensures (host.layOutContents_kept kind available frame kids)
    exact ⟨⟨rfl, rfl, rfl, rfl, rfl, fun holds => (agrees.x holds).trans kept.x.symm,
      fun holds => (agrees.y holds).trans kept.y.symm⟩, rfl⟩
  · show Run.Yields _ (host.layOutContents kind available other kids)
    rw [agrees.moved, layOutContents_moved]
    exact Run.yields_map _ yields

end Host

/-! ## Layout of reordered children -/

namespace Container

variable (resolve : Resolver) [resolve.OrderBlind] (style : Style) (frame : Frame) (available : Int)
  {count : Nat} (kid kid' : Nat → Kid) {takes : Nat → Bool} {positions : List Nat}

/-- **Children in layout order are placed as they are in document order.** -/
theorem flow_reordered (taken : ∀ i, takes i = (kid i).box.participates)
    (at_ : positions = inOrderOf (fun i => (kid i).box.style.order) (List.range count))
    (enters : ∀ i < count, (kid i).Enters Coupling.sure (reordered positions takes) (kid' i)) :
    Coupling.sure.Holds (fun a b => FlowAlike Coupling.sure (anywhere positions takes) True a b ∧
        a.container = prepare resolve style frame available ∧
        b.container = prepare resolve style frame available)
      (flow resolve style frame ((List.range count).map kid) available)
      (flow resolve style frame (positions.map kid') available) := by
  simp only [flow]
  generalize prepare resolve style frame available = container
  refine Coupling.sure.bind (Item.measureAll_reordered taken at_ enters) ?_
  rintro ⟨items, sized⟩ ⟨items', sized'⟩ ⟨numbered, length, sorted, tracks⟩
  dsimp only at numbered length sorted tracks ⊢
  obtain ⟨nodup, seated⟩ := sorted_facts numbered
  have kept : ∀ i, (reordered positions takes).keep i = false → Coupling.sure.drops :=
    fun _ drop => Bool.noConfusion drop
  have weightless : (reordered positions takes).Weightless (Item.sortByOrder items) :=
    fun _ _ drop => Bool.noConfusion drop
  refine Coupling.sure.bind (arrange_coupled rfl tracks (Item.sortByOrder_perm items) nodup
    (fun item member => ?_) weightless ?_ kept) fun a b placed => Coupling.sure.pure ⟨placed, rfl, rfl⟩
  · refine (seated item member).2.of_length ?_
    rw [length, List.length_map, List.length_range]
  · rw [sorted]
    exact Line.lines_breakAll container.alike_refl rfl _ weightless

/-- **A container does not tell children in layout order from the same children in
document order.** -/
theorem layOut_reordered (taken : ∀ i, takes i = (kid i).box.participates)
    (at_ : positions = inOrderOf (fun i => (kid i).box.style.order) (List.range count))
    (enters : ∀ i < count, (kid i).Enters Coupling.sure (reordered positions takes) (kid' i)) :
    Coupling.sure.Holds (fun a b => b.frame = a.frame ∧ a.children.length = count ∧
        b.children = positions.map fun i => a.children.getD i {})
      (layOut resolve style frame ((List.range count).map kid) available)
      (layOut resolve style frame (positions.map kid') available) := by
  simp only [layOut]
  apply Coupling.sure.bind (flow_reordered resolve style frame available kid kid' taken at_ enters)
  rintro flow flow' ⟨flows, first, second⟩
  have same : flow'.container = flow.container := second.trans first.symm
  have lines := Line.forall₂_of_lines (fun _ => rfl) flows.lines
  have crossSize := Flow.crossSize_alike lines (by rw [same])
  have spread : SpreadsAlike (reordered positions takes) flow flow' := by
    apply Line.lines_of_forall₂
    rw [crossSize, same]
    exact Line.spreadLines_alike lines rfl rfl rfl _
  have aligned := align_coupled resolve (same ▸ flow.container.alike_refl.toAkin) flows spread
    fun _ drop => Bool.noConfusion drop
  simp only [Flow.close]
  have perm : positions.Perm (List.range count) := at_ ▸ inOrderOf_perm _ _
  refine Coupling.sure.bind aligned fun a b ended => Coupling.sure.pure ?_
  have tracks := (anywhere positions takes).mono ended fun _ _ _ _ among =>
    same_of_among trivial among
  refine ⟨?_, ?_, ?_⟩
  · show flow'.container.finalFrame _ _ = flow.container.finalFrame _ _
    rw [Flow.mainSize_alike lines, crossSize, same]
  · rw [List.length_map]
    refine eq_of_forall_lt_iff fun i => ?_
    exact (tracks.1 i).symm.trans (perm.mem_iff.trans List.mem_range)
  · exact map_fragment_of_anywhere (perm.nodup_iff.2 List.nodup_range) tracks

end Container

/-! ## Trees -/

theorem Kid.ofBoxes_map {α : Type} (env : Environment) (box : α → Box) (fragment : α → Fragment)
    (list : List α) :
    Kid.ofBoxes env (list.map box) (list.map fragment) =
      list.map fun a => ⟨box a, fragment a, (box a).layOut env⟩ := by
  induction list with
  | nil => rfl
  | cons a rest ih => rw [List.map_cons, List.map_cons, List.map_cons, Kid.ofBoxes, ih]

theorem map_getD_range {α : Type} (list : List α) (default : α) :
    (List.range list.length).map (fun i => list.getD i default) = list := by
  refine List.ext_getElem (by simp) fun i _ bound => ?_
  rw [List.getElem_map, List.getElem_range]
  simp [bound]

namespace Tree

/-- Trees in layout order. -/
def inOrder (trees : List Tree) : List Tree := inOrderOf (fun tree => tree.box.style.order) trees

def unordered (tree : Tree) : Tree := { tree with box := tree.box.ordered 0 }

end Tree

namespace Box

/-- **Sorting the children beforehand makes no difference.**  A flex container of a host
that refuses nothing is laid out with its children in document order, and with its
children stably sorted by `order`, each with an `order` of zero.  Both succeed, whatever
was called before, and the container gets the same geometry, and so do the children with
all that is below them, those of the first result sorted the same way.  Sorting items by
`order` and number, stably or not, is stable sorting by `order`. -/
theorem layOutFlex_inOrder (conduct : Conduct) (units : Units) (resolves : Bool) (tree : Tree)
    (children : List Tree) (available : Int) :
    let host : Host := { conduct := conduct, units := units, resolves := resolves }
    let given := tree.withChildren children
    let sorted := tree.withChildren ((Tree.inOrder children).map Tree.unordered)
    (∃ result result' : Fragment,
      (given.box.layOutFlex host.environment given.fragment available).Yields result ∧
      (sorted.box.layOutFlex host.environment sorted.fragment available).Yields result' ∧
      result.children.length = children.length ∧ result'.frame = result.frame ∧
      result'.children = (Tree.inOrder
        (List.zipWith Tree.mk (children.map Tree.box) result.children)).map Tree.fragment) ∧
    ∀ items : List Item, (items.Pairwise fun a b => a.index < b.index) → ∀ sorted : List Item,
      sorted.Perm items ∧ (sorted.Pairwise fun a b => a.precedes b) ↔
        sorted = inOrderOf Item.order items := by
  intro host given sorted
  refine ⟨?_, fun items ordered sorted => Item.sorted_iff ordered sorted⟩
  let at_ (i : Nat) : Tree := children.getD i {}
  let kid (i : Nat) : Kid := ⟨(at_ i).box, (at_ i).fragment, (at_ i).box.layOut host.environment⟩
  let kid' (i : Nat) : Kid :=
    ⟨(at_ i).box.ordered 0, (at_ i).fragment, ((at_ i).box.ordered 0).layOut host.environment⟩
  let positions := inOrderOf (fun i => (at_ i).box.style.order) (List.range children.length)
  have all : (List.range children.length).map at_ = children := map_getD_range children {}
  have permuted : Tree.inOrder children = positions.map at_ := by
    rw [Tree.inOrder, ← all, inOrderOf_map]
  -- Both containers get the same children, listed by position in one and by `order` in the other.
  have kids : Kid.ofBoxes host.environment given.box.children given.fragment.children =
      (List.range children.length).map kid := by
    show Kid.ofBoxes _ (children.map Tree.box) (children.map Tree.fragment) = _
    rw [← all, List.map_map, List.map_map, Kid.ofBoxes_map, all]
    rfl
  have kids' : Kid.ofBoxes host.environment sorted.box.children sorted.fragment.children =
      positions.map kid' := by
    show Kid.ofBoxes _ (((Tree.inOrder children).map Tree.unordered).map Tree.box)
      (((Tree.inOrder children).map Tree.unordered).map Tree.fragment) = _
    rw [permuted, List.map_map, List.map_map, List.map_map, List.map_map, Kid.ofBoxes_map]
    rfl
  have keeps : Coupling.sure.Keeps host.environment := Host.sure_keeps rfl rfl
  obtain ⟨result, result', ⟨frames, length, places⟩, yields, yields'⟩ :=
    Container.layOut_reordered host.environment.resolve tree.box.style tree.fragment.frame available
      kid kid' (fun _ => rfl) rfl fun i _ =>
        ⟨⟨⟨0, rfl⟩, Box.routine_ordered keeps 0 (at_ i).box, Item.entry_refl _ _⟩, rfl⟩
  refine ⟨result, result', ?_, ?_, length, frames, places.trans ?_⟩
  · rw [layOutFlex, kids]
    exact yields
  · rw [layOutFlex, kids']
    exact yields'
  · have zipped : List.zipWith Tree.mk (children.map Tree.box) result.children =
        (List.range children.length).map fun i => ⟨(at_ i).box, result.children.getD i {}⟩ := by
      refine List.ext_getElem (by simp [length]) fun i _ bound => ?_
      have inside : i < children.length := by simpa using bound
      simp [at_, inside, length]
    rw [zipped, Tree.inOrder, inOrderOf_map, List.map_map]
    rfl

/-- Two children with an `order` of one stand around one with an `order` of zero; one between
them is generated, and one is out of flow.  The sorted children get the same places. -/
theorem layOutFlex_inOrder_tied :
    let first : Tree := ⟨{ style := { order := 1, width := some (.px 20) } }, {}⟩
    let made : Tree := ⟨{ generated := true, style := { order := -1 } }, {}⟩
    let second : Tree := ⟨{ style := { width := some (.px 30) } }, {}⟩
    let apart : Tree :=
      ⟨{ style := { order := 1, position := .absolute, width := some (.px 90) } }, {}⟩
    let third : Tree := ⟨{ style := { order := 1, width := some (.px 10) } }, {}⟩
    let tree : Tree := ⟨{ kind := .flex, style := { width := some (.px 100) } }, {}⟩
    let children := [first, made, second, apart, third]
    let sorted := [made, second, first, apart, third]
    let given := tree.withChildren children
    let given' := tree.withChildren (sorted.map Tree.unordered)
    let places (fragment : Fragment) : List (Int × Option Int) :=
      fragment.children.map fun child => (child.frame.x, child.frame.width)
    let items : List Item := [{ order := 1 }, { index := 1 }, { order := 1, index := 2 }]
    Tree.inOrder children = sorted ∧
      (∃ result result' : Fragment,
        (given.box.layOutFlex ({} : Host).environment given.fragment 100).Yields result ∧
        (given'.box.layOutFlex ({} : Host).environment given'.fragment 100).Yields result' ∧
        result'.frame = result.frame ∧
        places result = [(30, some 20), (0, none), (0, some 30), (50, some 90), (50, some 10)] ∧
        places result' = [(0, none), (0, some 30), (30, some 20), (50, some 90), (50, some 10)]) ∧
      (items.Pairwise fun a b => a.index < b.index) ∧
      inOrderOf Item.order items = [{ index := 1 }, { order := 1 }, { order := 1, index := 2 }] := by
  intro first made second apart third tree children sorted given given' places items
  have inOrder (a b c d e : Fragment) :
      Tree.inOrder [⟨first.box, a⟩, ⟨made.box, b⟩, ⟨second.box, c⟩, ⟨apart.box, d⟩, ⟨third.box, e⟩] =
        [⟨made.box, b⟩, ⟨second.box, c⟩, ⟨first.box, a⟩, ⟨apart.box, d⟩, ⟨third.box, e⟩] := by
    simp [Tree.inOrder, inOrderOf, List.mergeSort, List.MergeSort.Internal.splitInTwo, first, made,
      second, apart, third]
  have ordered : items.Pairwise fun a b => a.index < b.index := by decide
  have ran : Run.Succeeds (fun result =>
        places result = [(30, some 20), (0, none), (0, some 30), (50, some 90), (50, some 10)])
      (given.box.layOutFlex ({} : Host).environment given.fragment 100) #[] := by
    simp only [layOutFlex, Container.layOut]
    rw [Container.flow_eq_insertionSort]
    decide +kernel
  obtain ⟨⟨result, result', yields, yields', -, frames, sorts⟩, items_⟩ :=
    layOutFlex_inOrder .leaf {} true tree children 100
  rw [show Tree.inOrder children = sorted from inOrder {} {} {} {} {}] at yields'
  obtain ⟨after, done⟩ := yields #[]
  have stands := ran.holds done
  refine ⟨inOrder {} {} {} {} {}, ⟨result, result', yields, yields', frames, stands, ?_⟩, ordered, ?_⟩
  · simp only [places, List.map_eq_cons_iff, List.map_eq_nil_iff] at stands
    obtain ⟨a, _, listed, atA, b, _, rfl, atB, c, _, rfl, atC, d, _, rfl, atD, e, _, rfl, atE, rfl⟩ :=
      stands
    rw [listed] at sorts
    have found : result'.children = [b, c, a, d, e] := by
      rw [sorts]
      exact congrArg (List.map Tree.fragment) (inOrder a b c d e)
    simp only [places, found, List.map_cons, List.map_nil, atA, atB, atC, atD, atE]
  · exact ((items_ items ordered _).1 ⟨by decide, by decide⟩).symm

end Box

end FlexLayout
