/-
# FlexLayout.Proofs.Ordering.Stable -- stable sorting

`inOrderOf key` sorts a list by a key and leaves elements with the same key in the order
that they had (`filter_inOrderOf`).  Layout order is that order: items are numbered in
document order, and sorting them by `order` and number, by whatever means, is sorting
them by `order` alone (`Item.sorted_iff`).
-/
import FlexLayout.Proofs.Stages.Order

namespace FlexLayout

set_option autoImplicit false

open scoped List

variable {α β : Type}

/-- A list in the order of a key; elements with the same key stay as they were. -/
def inOrderOf (key : α → Int) (list : List α) : List α := list.mergeSort fun a b => key a ≤ key b

section

variable (key : α → Int) (list : List α)

theorem inOrderOf_perm : (inOrderOf key list).Perm list := List.mergeSort_perm list _

theorem le_trans_of_key (a b c : α) (ab : decide (key a ≤ key b) = true)
    (bc : decide (key b ≤ key c) = true) : decide (key a ≤ key c) = true :=
  decide_eq_true (Int.le_trans (of_decide_eq_true ab) (of_decide_eq_true bc))

theorem le_total_of_key (a b : α) :
    (decide (key a ≤ key b) || decide (key b ≤ key a)) = true := by
  simpa only [Bool.or_eq_true, decide_eq_true_eq] using Int.le_total (key a) (key b)

theorem inOrderOf_sorted : (inOrderOf key list).Pairwise fun a b => key a ≤ key b :=
  (List.pairwise_mergeSort (le_trans_of_key key) (le_total_of_key key) list).imp of_decide_eq_true

/-- **Sorting leaves the elements with one key in their order.** -/
theorem filter_inOrderOf (size : Int) :
    (inOrderOf key list).filter (key · = size) = list.filter (key · = size) := by
  have alike : (list.filter (key · = size)).Pairwise fun a b => decide (key a ≤ key b) = true := by
    refine List.pairwise_of_forall_mem_list fun a first b second => decide_eq_true ?_
    rw [of_decide_eq_true (List.mem_filter.1 first).2, of_decide_eq_true (List.mem_filter.1 second).2]
  -- Merge sort keeps sublists that are sorted, and elements with one key are.
  have inside : list.filter (key · = size) <+ inOrderOf key list :=
    List.sublist_mergeSort (le_trans_of_key key) (le_total_of_key key) alike List.filter_sublist
  have kept := inside.filter (key · = size)
  simp only [List.filter_filter, Bool.and_self] at kept
  exact (kept.eq_of_length ((inOrderOf_perm key list).filter _).length_eq.symm).symm

/-- Where the key does not decide, elements come in the order that they had. -/
theorem inOrderOf_pairwise {R : α → α → Prop} (ordered : list.Pairwise R) :
    (inOrderOf key list).Pairwise fun a b => key a < key b ∨ key a = key b ∧ R a b := by
  refine List.pairwise_iff_forall_sublist.2 fun {a b} pair => ?_
  rcases Int.lt_or_eq_of_le (List.pairwise_iff_forall_sublist.1 (inOrderOf_sorted key list) pair)
    with less | same
  · exact .inl less
  · have both := pair.filter (key · = key a)
    rw [filter_inOrderOf, List.filter_cons, if_pos (by simp), List.filter_cons,
      if_pos (by simp [same])] at both
    exact .inr ⟨same, List.pairwise_iff_forall_sublist.1 ordered (both.trans List.filter_sublist)⟩

end

theorem inOrderOf_map (key : β → Int) (f : α → β) (list : List α) :
    inOrderOf key (list.map f) = (inOrderOf (fun a => key (f a)) list).map f := by
  simp only [inOrderOf]
  exact (List.map_mergeSort (f := f) fun _ _ _ _ => rfl).symm

namespace Item

/-- **Sorting by `order` and number is stable sorting by `order`**, for items that are
numbered in document order, whatever the sort does besides. -/
theorem sorted_iff {items : List Item} (ordered : items.Pairwise fun a b => a.index < b.index)
    (sorted : List Item) :
    sorted.Perm items ∧ (sorted.Pairwise fun a b => a.precedes b) ↔
      sorted = inOrderOf Item.order items := by
  have stable : (inOrderOf Item.order items).Pairwise fun a b => a.precedes b := by
    refine (inOrderOf_pairwise Item.order items ordered).imp fun {a b} before => ?_
    simp only [precedes, Bool.or_eq_true, Bool.and_eq_true, decide_eq_true_eq, beq_iff_eq]
    omega
  have same := eq_sortByOrder ordered (inOrderOf_perm Item.order items) stable
  constructor
  · rintro ⟨perm, sound⟩
    exact (eq_sortByOrder ordered perm sound).trans same.symm
  · rintro rfl
    exact ⟨inOrderOf_perm Item.order items, stable⟩

end Item

end FlexLayout
