/-
# FlexLayout.Proofs.Stages.Order -- layout order of corresponding items

Items are numbered in document order, so no two are tied, and their layout order
depends on nothing but `order` and these numbers.  Leaving items out keeps the order
of the others, and so does renumbering them in the same order (`sortByOrder_items`).
Inserting them one after the other gives that order as well
(`sortByOrder_eq_insertionSort`), and computes.
-/
import FlexLayout.Proofs.Children.Pairing
import Mathlib.Data.List.Pairwise
import Mathlib.Data.List.Sort

namespace FlexLayout

set_option autoImplicit false

namespace Item

theorem index_eq_of_precedes {a b : Item} (ab : a.precedes b) (ba : b.precedes a) :
    a.index = b.index := by
  simp only [precedes, Bool.or_eq_true, Bool.and_eq_true, decide_eq_true_eq, beq_iff_eq] at ab ba
  omega

theorem eq_of_index_eq {items : List Item} (ordered : items.Pairwise fun a b => a.index < b.index)
    {a b : Item} (first : a ∈ items) (second : b ∈ items) (same : a.index = b.index) : a = b := by
  by_contra ne
  have apart : items.Pairwise fun a b => a.index ≠ b.index := ordered.imp fun lt => Nat.ne_of_lt lt
  have : Std.Symm fun a b : Item => a.index ≠ b.index := ⟨fun _ _ ne => ne.symm⟩
  exact apart.forall first second ne same

def Precedes (a b : Item) : Prop := a.precedes b = true

instance : DecidableRel Precedes := fun a b => inferInstanceAs (Decidable (a.precedes b = true))

instance : IsTrans Item Precedes := ⟨precedes_trans⟩

instance : Std.Total Precedes :=
  ⟨fun a b => by simpa only [Precedes, Bool.or_eq_true] using precedes_total a b⟩

theorem eq_sortByOrder {items sorted : List Item}
    (ordered : items.Pairwise fun a b => a.index < b.index) (perm : sorted.Perm items)
    (sound : sorted.Pairwise fun a b => a.precedes b) : sorted = sortByOrder items := by
  have among := sortByOrder_perm items
  refine (perm.trans among.symm).eq_of_pairwise ?_ sound (sortByOrder_sorted items)
  intro a b first second ab ba
  exact eq_of_index_eq ordered (perm.mem_iff.1 first) (among.mem_iff.1 second)
    (index_eq_of_precedes ab ba)

/-- Layout order by insertion. -/
theorem sortByOrder_eq_insertionSort {items : List Item}
    (ordered : items.Pairwise fun a b => a.index < b.index) :
    sortByOrder items = items.insertionSort Precedes :=
  (eq_sortByOrder ordered (List.perm_insertionSort Precedes items)
    (List.pairwise_insertionSort Precedes items)).symm

/-- Leaving items out keeps the order of the others. -/
theorem sortByOrder_filter (cond : Item → Bool) {items : List Item}
    (ordered : items.Pairwise fun a b => a.index < b.index) :
    sortByOrder (items.filter cond) = (sortByOrder items).filter cond := by
  have perm : (sortByOrder (items.filter cond)).Perm ((sortByOrder items).filter cond) :=
    (sortByOrder_perm _).trans ((sortByOrder_perm items).filter cond).symm
  refine perm.eq_of_pairwise ?_ (sortByOrder_sorted _) ((sortByOrder_sorted items).filter cond)
  intro a b first second ab ba
  have among := ((sortByOrder_perm _).mem_iff.1 first)
  have among' := (sortByOrder_perm items).mem_iff.1 (List.mem_filter.1 second).1
  exact eq_of_index_eq ordered (List.mem_filter.1 among).1 among' (index_eq_of_precedes ab ba)

/-- **The layout order of corresponding items.** -/
theorem sortByOrder_items {p : Pairing} (order : p.order = id) {items : List Item}
    (ordered : items.Pairwise fun a b => a.index < b.index)
    (ordered' : (p.items items).Pairwise fun a b => a.index < b.index) :
    sortByOrder (p.items items) = p.items (sortByOrder items) := by
  let kept := items.filter fun item => p.keep item.child
  have renumbered : (kept.map p.item).Pairwise fun a b => a.index < b.index := ordered'
  rw [List.pairwise_map] at renumbered
  have both : kept.Pairwise fun a b => a.index < b.index ∧ (p.item a).index < (p.item b).index :=
    (ordered.filter _).and renumbered
  have alike (a b : Item) (number : decide (a.index ≤ b.index) =
      decide ((p.item a).index ≤ (p.item b).index)) :
      a.precedes b = (p.item a).precedes (p.item b) := by
    have kept (item : Item) : (p.item item).order = item.order := congrFun order item.order
    simp only [precedes]
    rw [number, kept, kept]
  have same : ∀ a ∈ kept, ∀ b ∈ kept, a.precedes b = (p.item a).precedes (p.item b) := by
    refine fun a first b second => List.Pairwise.forall_of_forall_of_flip
      (R := fun a b => a.precedes b = (p.item a).precedes (p.item b)) ?_ ?_ ?_ first second
    · intro item _
      exact alike item item (by simp)
    · exact both.imp fun {a b} lt =>
        alike a b (by rw [decide_eq_true (Nat.le_of_lt lt.1), decide_eq_true (Nat.le_of_lt lt.2)])
    · exact both.imp fun {a b} lt =>
        alike b a (by rw [decide_eq_false (Nat.not_le_of_lt lt.1),
          decide_eq_false (Nat.not_le_of_lt lt.2)])
  have mapped := List.map_mergeSort same
  rw [Pairing.items, sortByOrder, ← mapped, Pairing.items]
  exact congrArg (List.map p.item) (sortByOrder_filter _ ordered)

end Item

end FlexLayout
