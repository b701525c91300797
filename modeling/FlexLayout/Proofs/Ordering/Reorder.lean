/-
# FlexLayout.Proofs.Ordering.Reorder -- children in another order

The children of a container are put in another order, given as the list of their
positions.  Items refer to children by position, so the items of the reordered container
are those of the first, renumbered (`Pairing.reordered`).  Children that are measured
successfully, whatever was called before, are measured alike in any order
(`Item.measureAll_reordered`); and where the new order is the layout order and `order` is
gone, sorting the new items comes to sorting the old ones.
-/
import FlexLayout.Proofs.Ordering.Stable
import FlexLayout.Proofs.Stages.Flow

namespace FlexLayout

set_option autoImplicit false

namespace Pairing

/-- The children at these positions, in this order and without an `order` of their own.
`takes` tells which of them take part in layout. -/
def reordered (positions : List Nat) (takes : Nat → Bool) : Pairing where
  keep _ := true
  child i := positions.idxOf i
  index i _ := (positions.take (positions.idxOf i)).countP takes
  line number := number
  order _ := 0

/-- Children whose counterparts stand wherever their position says. -/
def anywhere (positions : List Nat) (takes : Nat → Bool) :
    (reordered positions takes).Tracking where
  Holds D kids kids' := (∀ i, i ∈ positions ↔ i < kids.length) ∧
    kids'.length = positions.length ∧
    ∀ i kid, kids[i]? = some kid → ∃ kid', kids'[positions.idxOf i]? = some kid' ∧ D i kid kid'
  mono := by
    rintro D E kids kids' ⟨inside, length, pairs⟩ weaker
    refine ⟨inside, length, fun i kid found => ?_⟩
    obtain ⟨kid', found', related⟩ := pairs i kid found
    exact ⟨kid', found', weaker i kid kid' rfl related⟩
  get pairs _ _ _ found := pairs.2.2 _ _ found
  set := by
    rintro D kids kids' ⟨inside, length, pairs⟩ i _ kid found R new new' related
    obtain ⟨bound, -⟩ := List.getElem?_eq_some_iff.1 found
    refine ⟨fun j => by rw [List.length_set]; exact inside j, by rwa [List.length_set],
      fun j other found' => ?_⟩
    rw [List.getElem?_set] at found'
    split at found'
    · rename_i same
      subst same
      rw [Option.some.injEq] at found'
      obtain ⟨kid', there, -⟩ := pairs i kid found
      obtain ⟨bound', -⟩ := List.getElem?_eq_some_iff.1 there
      refine ⟨new', ?_, ?_⟩
      · show (kids'.set (positions.idxOf i) new')[positions.idxOf i]? = some new'
        rw [List.getElem?_set, if_pos rfl, if_pos bound']
      · rw [put_self, ← found']
        exact related
    · rename_i apart
      obtain ⟨kid', there, holds⟩ := pairs j other found'
      have apart' : positions.idxOf i ≠ positions.idxOf j := fun same =>
        apart ((List.idxOf_inj ((inside i).2 bound)).1 same)
      refine ⟨kid', ?_, ?_⟩
      · show (kids'.set (positions.idxOf i) new')[positions.idxOf j]? = some kid'
        rw [List.getElem?_set, if_neg apart']
        exact there
      · rw [put_ne D R (Ne.symm apart)]
        exact holds
  set_of_drop _ _ drop _ := Bool.noConfusion drop

theorem map_fragment_of_anywhere {Γ : Coupling} {positions : List Nat} {takes : Nat → Bool}
    {kids kids' : List Kid} (nodup : positions.Nodup)
    (tracks : (anywhere positions takes).Holds (fun _ kid kid' => kid.Pair Γ Same kid') kids kids') :
    kids'.map Kid.fragment = positions.map fun i => (kids.map Kid.fragment).getD i {} := by
  obtain ⟨inside, length, pairs⟩ := tracks
  refine List.ext_getElem (by rw [List.length_map, List.length_map, length]) fun k bound _ => ?_
  rw [List.length_map, length] at bound
  have there := (inside positions[k]).1 (List.getElem_mem bound)
  obtain ⟨kid', found, pair⟩ := pairs positions[k] _ (List.getElem?_eq_getElem there)
  rw [nodup.idxOf_getElem k bound] at found
  obtain ⟨bound', at_⟩ := List.getElem?_eq_some_iff.1 found
  have same : kid'.fragment = (kids[positions[k]]).fragment := pair.related
  rw [List.getElem_map, List.getElem_map, at_, same, List.getD_eq_getElem?_getD,
    List.getElem?_map, List.getElem?_eq_getElem there]
  rfl

theorem items_reordered (positions : List Nat) (takes : Nat → Bool) (items : List Item) :
    (reordered positions takes).items items = items.map (reordered positions takes).item := by
  rw [Pairing.items]
  exact congrArg _ (List.filter_eq_self.2 fun _ _ => rfl)

end Pairing

namespace Item

open Pairing

variable {resolve : Resolver} {container : Container}

/-- Children of which each yields an item, whatever was called before. -/
theorem measureAll_yields {kid : Nat → Kid} {out : Nat → Item × Kid} {takes : Nat → Bool}
    (child index : Nat) {positions : List Nat}
    (taken : ∀ i ∈ positions, (kid i).box.participates = takes i)
    (each : ∀ (before : List Nat) (i : Nat) (after : List Nat), positions = before ++ i :: after →
      takes i = true →
      (measure resolve container (child + before.length) (index + before.countP takes)
        (kid i)).Yields (out i)) :
    (measureAll resolve container child index (positions.map kid)).Yields
      ((positions.filter takes).map fun i => (out i).1,
        positions.map fun i => if takes i then (out i).2 else kid i) := by
  induction positions generalizing child index with
  | nil => exact Run.yields_pure _
  | cons first rest ih =>
      have later := ih (child + 1) (index + if takes first then 1 else 0)
        (List.forall_mem_cons.1 taken).2 fun before i after split takes => by
          have there := each (first :: before) i after (congrArg (first :: ·) split) takes
          rw [List.length_cons, List.countP_cons, Nat.add_comm _ 1, ← Nat.add_assoc,
            Nat.add_comm (List.countP _ _), ← Nat.add_assoc] at there
          exact there
      rw [List.map_cons, List.map_cons, List.filter_cons, measureAll,
        taken first List.mem_cons_self]
      cases here : takes first with
      | true =>
          rw [here, if_pos rfl] at later
          rw [if_pos rfl, if_pos rfl, if_pos rfl, List.map_cons]
          exact Run.yields_bind (each [] first rest rfl here)
            (Run.yields_bind later (Run.yields_pure _))
      | false =>
          rw [here, if_neg Bool.false_ne_true] at later
          rw [if_neg Bool.false_ne_true, if_neg Bool.false_ne_true, if_neg Bool.false_ne_true]
          exact Run.yields_bind later (Run.yields_pure _)

/-- Positions in document order come after all smaller ones. -/
theorem eq_range_of_split {count i : Nat} {before after : List Nat}
    (split : List.range count = before ++ i :: after) : before = List.range i := by
  have place : (List.range count)[before.length]? = some i := by rw [split]; simp
  obtain ⟨bound, there⟩ := List.getElem?_eq_some_iff.1 place
  rw [List.getElem_range] at there
  rw [List.length_range] at bound
  have taken := congrArg (List.take before.length) split
  rw [List.take_left, List.take_range, there, Nat.min_eq_left (there ▸ Nat.le_of_lt bound)] at taken
  exact taken.symm

theorem idxOf_of_split {positions before after : List Nat} {i : Nat} (nodup : positions.Nodup)
    (split : positions = before ++ i :: after) :
    positions.idxOf i = before.length ∧ positions.take before.length = before := by
  subst split
  refine ⟨?_, List.take_left⟩
  have apart : i ∉ before := fun inside =>
    (List.nodup_append.1 nodup).2.2 i inside i List.mem_cons_self rfl
  rw [List.idxOf_append, if_neg apart, List.idxOf_cons_self, Nat.zero_add]

theorem measure_order (child index : Nat) (kid : Kid) :
    Run.Ensures (fun a => a.1.order = kid.box.style.order)
      (measure resolve container child index kid) := by
  simp only [measure]
  split
  · exact Run.ensures_pure rfl
  · exact Run.ensures_bind (Run.ensures_true _) fun _ _ => Run.ensures_pure rfl

theorem countP_range_lt {takes : Nat → Bool} {i j : Nat} (lt : i < j) (taken : takes i = true) :
    (List.range i).countP takes < (List.range j).countP takes := by
  have next : (List.range (i + 1)).countP takes = (List.range i).countP takes + 1 := by
    rw [List.range_succ, List.countP_append, List.countP_singleton, if_pos taken]
  have later := (List.range_sublist.2 (show i + 1 ≤ j from lt)).countP_le (p := takes)
  omega

/-- Items in the order of their children's positions, by `order` first. -/
theorem sortByOrder_of_positions {order : Nat → Int} {count : Nat} {takes : Nat → Bool}
    {item : Nat → Item} (orders : ∀ i < count, takes i = true → (item i).order = order i)
    (numbers : ∀ i < count, takes i = true → (item i).index = (List.range i).countP takes) :
    sortByOrder (((List.range count).filter takes).map item) =
      ((inOrderOf order (List.range count)).filter takes).map item := by
  have perm := inOrderOf_perm order (List.range count)
  have taken {i : Nat} (member : i ∈ (List.range count).filter takes) : i < count ∧ takes i = true :=
    (List.mem_filter.1 member).imp_left List.mem_range.1
  have less {i j : Nat} (first : i ∈ (List.range count).filter takes)
      (second : j ∈ (List.range count).filter takes) (lt : i < j) :
      (item i).index < (item j).index := by
    rw [numbers i (taken first).1 (taken first).2, numbers j (taken second).1 (taken second).2]
    exact countP_range_lt lt (taken first).2
  -- Items with different numbers have one sorted order, so it suffices that this one is sorted.
  refine (eq_sortByOrder ?_ ((perm.filter takes).map item) ?_).symm
  · refine List.pairwise_map.2 ?_
    exact (List.pairwise_lt_range.filter takes).imp_of_mem fun first second lt => less first second lt
  · refine List.pairwise_map.2 ?_
    refine ((inOrderOf_pairwise order (List.range count) List.pairwise_lt_range).filter
      takes).imp_of_mem fun {i j} first second before => ?_
    have first := (perm.filter takes).mem_iff.1 first
    have second := (perm.filter takes).mem_iff.1 second
    simp only [precedes, Bool.or_eq_true, Bool.and_eq_true, decide_eq_true_eq, beq_iff_eq]
    rw [orders i (taken first).1 (taken first).2, orders j (taken second).1 (taken second).2]
    refine before.imp_right ?_
    rintro ⟨same, lt⟩
    exact ⟨same, Nat.le_of_lt (less first second lt)⟩

/-- What each participating child yields in document order, and its counterpart in the new
one. -/
structure Reordered (resolve : Resolver) (container : Container) (count : Nat)
    (kid kid' : Nat → Kid) (takes : Nat → Bool) (positions : List Nat)
    (a b : Nat → Item × Kid) : Prop where
  item : ∀ i < count, takes i = true → (b i).1 = (reordered positions takes).item (a i).1
  pair : ∀ i < count, takes i = true →
    (a i).2.Pair Coupling.sure (Measured Coupling.sure container.axes) (b i).2
  first : ∀ i < count, takes i = true →
    (measure resolve container i ((List.range i).countP takes) (kid i)).Yields (a i)
  second : ∀ i < count, takes i = true →
    (measure resolve container (positions.idxOf i)
      ((positions.take (positions.idxOf i)).countP takes) (kid' i)).Yields (b i)

section

variable {count : Nat} {kid kid' : Nat → Kid} {takes : Nat → Bool} {positions : List Nat}

/-- Children whose old geometry layout does not look at are measured the same in either
order. -/
theorem exists_reordered (resolve : Resolver) [resolve.OrderBlind] (container : Container)
    (taken : ∀ i, takes i = (kid i).box.participates)
    (enters : ∀ i < count, (kid i).Enters Coupling.sure (reordered positions takes) (kid' i)) :
    ∃ a b, Reordered resolve container count kid kid' takes positions a b := by
  have each : ∀ i, ∃ a b : Item × Kid, i < count → takes i = true →
      (b.1 = (reordered positions takes).item a.1 ∧
        a.2.Pair Coupling.sure (Measured Coupling.sure container.axes) b.2) ∧
      (measure resolve container i ((List.range i).countP takes) (kid i)).Yields a ∧
      (measure resolve container (positions.idxOf i)
        ((positions.take (positions.idxOf i)).countP takes) (kid' i)).Yields b := by
    intro i
    by_cases here : i < count ∧ takes i = true
    · have enters := enters i here.1
      have measured : Coupling.sure.Holds _
          (measure resolve container i ((List.range i).countP takes) (kid i)) _ :=
        measure_coupled (p := reordered positions takes) Coupling.sure container.alike_refl.toAkin rfl i
          _ (enters.fresh (taken i ▸ here.2)) enters.order fun _ => rfl
      obtain ⟨a, b, alike, yields, yields'⟩ := measured
      exact ⟨a, b, fun _ _ => ⟨alike, yields, yields'⟩⟩
    · exact ⟨({}, kid i), ({}, kid i), fun inside takes' => absurd ⟨inside, takes'⟩ here⟩
  choose a b each using each
  exact ⟨a, b, fun i inside takes => (each i inside takes).1.1,
    fun i inside takes => (each i inside takes).1.2,
    fun i inside takes => (each i inside takes).2.1,
    fun i inside takes => (each i inside takes).2.2⟩

namespace Reordered

variable {a b : Nat → Item × Kid}
  (each : Reordered resolve container count kid kid' takes positions a b)
include each

/-- The items refer to their children by position and are numbered among themselves. -/
theorem numbers (i : Nat) (inside : i < count) (taken : takes i = true) :
    (a i).1.child = i ∧ (a i).1.index = (List.range i).countP takes ∧
      (a i).1.order = (kid i).box.style.order := by
  have yields := each.first i inside taken
  have numbered := yields.of_ensures (measure_numbered i _ (kid i))
  exact ⟨numbered.1, numbered.2.1, yields.of_ensures (measure_order i _ (kid i))⟩

theorem measureAll_first (taken : ∀ i, takes i = (kid i).box.participates) :
    (measureAll resolve container 0 0 ((List.range count).map kid)).Yields
      (((List.range count).filter takes).map fun i => (a i).1,
        (List.range count).map fun i => if takes i then (a i).2 else kid i) := by
  refine measureAll_yields 0 0 (fun i _ => (taken i).symm) fun before i after split takes' => ?_
  have inside : i ∈ List.range count := by rw [split]; simp
  rw [eq_range_of_split split, List.length_range, Nat.zero_add, Nat.zero_add]
  exact each.first i (List.mem_range.1 inside) takes'

theorem measureAll_second (perm : positions.Perm (List.range count))
    (taken : ∀ i < count, takes i = (kid' i).box.participates) :
    (measureAll resolve container 0 0 (positions.map kid')).Yields
      ((positions.filter takes).map fun i => (b i).1,
        positions.map fun i => if takes i then (b i).2 else kid' i) := by
  have inside {i : Nat} (member : i ∈ positions) : i < count :=
    List.mem_range.1 (perm.mem_iff.1 member)
  refine measureAll_yields 0 0 (fun i member => (taken i (inside member)).symm)
    fun before i after split takes' => ?_
  have member : i ∈ positions := by rw [split]; simp
  obtain ⟨place, before_eq⟩ := idxOf_of_split (perm.nodup_iff.2 List.nodup_range) split
  have yields := each.second i (inside member) takes'
  rwa [place, before_eq, ← Nat.zero_add before.length, ← Nat.zero_add (before.countP takes)]
    at yields

/-- The items in layout order, renumbered. -/
theorem items_sorted
    (at_ : positions = inOrderOf (fun i => (kid i).box.style.order) (List.range count)) :
    (reordered positions takes).items
        (sortByOrder (((List.range count).filter takes).map fun i => (a i).1)) =
      (positions.filter takes).map fun i => (b i).1 := by
  have sorted : sortByOrder (((List.range count).filter takes).map fun i => (a i).1) =
      (positions.filter takes).map fun i => (a i).1 := by
    rw [at_]
    exact sortByOrder_of_positions (fun i inside takes' => (each.numbers i inside takes').2.2)
      fun i inside takes' => (each.numbers i inside takes').2.1
  have inside {i : Nat} (member : i ∈ positions) : i < count := by
    rw [at_] at member
    exact List.mem_range.1 ((inOrderOf_perm _ _).mem_iff.1 member)
  rw [sorted, items_reordered, List.map_map]
  refine List.map_congr_left fun i member => ?_
  obtain ⟨member, takes'⟩ := List.mem_filter.1 member
  exact (each.item i (inside member) takes').symm

theorem map_child : (((List.range count).filter takes).map fun i => (a i).1).map Item.child =
    (List.range count).filter takes := by
  rw [List.map_map]
  refine (List.map_congr_left fun i member => ?_).trans (List.map_id _)
  obtain ⟨inside, takes'⟩ := List.mem_filter.1 member
  exact (each.numbers i (List.mem_range.1 inside) takes').1

/-- The children that have been measured stand where their positions say. -/
theorem tracks (inside : ∀ i, i ∈ positions ↔ i < count)
    (same : ∀ i < count, takes i = false → (kid i).Pair Coupling.sure Same (kid' i)) :
    (anywhere positions takes).Holds
      (Among Coupling.sure ((List.range count).filter takes) (Measured Coupling.sure container.axes))
      ((List.range count).map fun i => if takes i then (a i).2 else kid i)
      (positions.map fun i => if takes i then (b i).2 else kid' i) := by
  refine ⟨fun i => ?_, List.length_map _, fun i other found => ?_⟩
  · rw [List.length_map, List.length_range]
    exact inside i
  · rw [List.getElem?_map] at found
    obtain ⟨j, there, rfl⟩ := Option.map_eq_some_iff.1 found
    obtain ⟨bound, at_⟩ := List.getElem?_eq_some_iff.1 there
    rw [List.getElem_range] at at_
    subst at_
    rw [List.length_range] at bound
    refine ⟨if takes i then (b i).2 else kid' i, ?_, ?_⟩
    · rw [List.getElem?_map, List.getElem?_idxOf ((inside i).2 bound)]
      rfl
    · cases takes' : takes i with
      | true =>
          rw [if_pos rfl, if_pos rfl, among_of_mem (by simp [bound, takes'])]
          exact each.pair i bound takes'
      | false =>
          rw [if_neg Bool.false_ne_true, if_neg Bool.false_ne_true,
            among_of_not_mem (by simp [takes'])]
          exact same i bound takes'

end Reordered

/-- **Children that are measured successfully are measured alike in any order**, and the
new items sort as the old ones do. -/
theorem measureAll_reordered [resolve.OrderBlind]
    (taken : ∀ i, takes i = (kid i).box.participates)
    (at_ : positions = inOrderOf (fun i => (kid i).box.style.order) (List.range count))
    (enters : ∀ i < count,
      (kid i).Enters Coupling.sure (reordered positions takes) (kid' i)) :
    Coupling.sure.Holds
      (fun a b => Numbered 0 0 ((List.range count).map kid) a.1 ∧ a.2.length = count ∧
        sortByOrder b.1 = (reordered positions takes).items (sortByOrder a.1) ∧
        (anywhere positions takes).Holds
          (Among Coupling.sure (a.1.map Item.child) (Measured Coupling.sure container.axes)) a.2 b.2)
      (measureAll resolve container 0 0 ((List.range count).map kid))
      (measureAll resolve container 0 0 (positions.map kid')) := by
  have perm : positions.Perm (List.range count) := at_ ▸ inOrderOf_perm _ _
  obtain ⟨a, b, each⟩ := exists_reordered resolve container taken enters
  have first := each.measureAll_first taken
  have second := each.measureAll_second perm fun i inside =>
    (taken i).trans (enters i inside).participates.symm
  refine ⟨_, _, ⟨(first.of_ensures (measureAll_numbered 0 0 _)).1, ?_, ?_, ?_⟩, first, second⟩
  · rw [List.length_map, List.length_range]
  · dsimp only
    rw [each.items_sorted at_]
    -- the new items have no `order`, so they are sorted as they are numbered
    have numbered := (second.of_ensures (measureAll_numbered 0 0 _)).1
    refine (eq_sortByOrder (numbered.ordered.imp And.right) (.refl _) ?_).symm
    refine numbered.ordered.imp_of_mem fun {c d} first' second' lt => ?_
    have zero {item : Item} (member : item ∈ (positions.filter takes).map fun i => (b i).1) :
        item.order = 0 := by
      rw [← each.items_sorted at_, items_reordered] at member
      obtain ⟨source, -, rfl⟩ := List.mem_map.1 member
      rfl
    simp only [precedes, Bool.or_eq_true, Bool.and_eq_true, decide_eq_true_eq, beq_iff_eq]
    exact .inr ⟨(zero first').trans (zero second').symm, Nat.le_of_lt lt.2⟩
  · dsimp only
    rw [each.map_child]
    exact each.tracks (fun i => perm.mem_iff.trans List.mem_range) fun i inside drops =>
      (enters i inside).same ((taken i).symm.trans drops)

end

end Item

end FlexLayout
