/-
# FlexLayout.Proofs.Children.Pairing -- the children of a container and of another

Two containers are compared child by child.  A `Pairing` says which children of the
first take part, and where the counterpart of each stands in the second.  Items
refer to children by position, so the items of the second container are those of the
first that take part, renumbered (`Pairing.items`).

`Pairing.Tracks` is the state of the comparison: the two lists of children, with
each child that takes part related to its counterpart, by a relation that depends on
the position, since children go through layout one after the other.  Replacing a
child and its counterpart moves them to another relation (`Tracks.set`).  After the
children are measured layout refers to them by position only, and all that matters of
the state is a `Pairing.Tracking`; counterparts in the same order give one
(`Pairing.aligned`).
-/
import FlexLayout.Item
import FlexLayout.Run

namespace FlexLayout

set_option autoImplicit false

/-- How the children of one container correspond to those of another. -/
structure Pairing where
  /-- The child at this position has a counterpart. -/
  keep : Nat → Bool
  /-- Position of the counterpart. -/
  child : Nat → Nat
  /-- Number of the counterpart's item, from the child's position and the number of
  its item. -/
  index : Nat → Nat → Nat
  /-- Number of the counterpart's line. -/
  line : Nat → Nat
  /-- `order` of the counterpart. -/
  order : Int → Int := id

namespace Pairing

def same : Pairing where
  keep _ := true
  child position := position
  index _ number := number
  line number := number

variable (p : Pairing)

/-! ## Items -/

def item (item : Item) : Item :=
  { item with
    child := p.child item.child
    index := p.index item.child item.index
    line := p.line item.line
    order := p.order item.order }

def items (items : List Item) : List Item := (items.filter fun item => p.keep item.child).map p.item

theorem items_nil : p.items [] = [] := rfl

theorem items_cons_of_keep {item : Item} (keep : p.keep item.child = true) (rest : List Item) :
    p.items (item :: rest) = p.item item :: p.items rest := by
  simp [items, keep]

theorem items_cons_of_drop {item : Item} (drop : p.keep item.child = false) (rest : List Item) :
    p.items (item :: rest) = p.items rest := by
  simp [items, drop]

theorem items_append (items rest : List Item) :
    p.items (items ++ rest) = p.items items ++ p.items rest := by
  simp [Pairing.items]

theorem filter_same (items : List Item) : items.filter (fun item => same.keep item.child) = items :=
  List.filter_eq_self.2 fun _ _ => rfl

theorem items_same (items : List Item) : same.items items = items := by
  rw [Pairing.items, filter_same]
  exact List.map_id items

/-- Items without a counterpart take no space. -/
def Weightless (items : List Item) : Prop :=
  ∀ item ∈ items, p.keep item.child = false → item.outOfFlow = true

theorem weightless_same (items : List Item) : same.Weightless items := by
  intro item _ drop
  simp [same] at drop

/-! ## Children -/

/-- Two lists of children, from given positions on: a child that takes part is
related to its counterpart. -/
inductive Tracks (D : Nat → Kid → Kid → Prop) : Nat → Nat → List Kid → List Kid → Prop where
  | nil (child child' : Nat) : Tracks D child child' [] []
  | keep {child child' : Nat} {kid kid' : Kid} {rest rest' : List Kid}
      (keeps : p.keep child = true) (position : p.child child = child')
      (related : D child kid kid') (rests : Tracks D (child + 1) (child' + 1) rest rest') :
      Tracks D child child' (kid :: rest) (kid' :: rest')
  | drop {child child' : Nat} {kid : Kid} {rest rest' : List Kid}
      (drops : p.keep child = false) (rests : Tracks D (child + 1) child' rest rest') :
      Tracks D child child' (kid :: rest) rest'

variable {p} {D E : Nat → Kid → Kid → Prop} {child child' : Nat} {kids kids' : List Kid}

theorem Tracks.mono (tracks : p.Tracks D child child' kids kids')
    (weaker : ∀ position kid kid', child ≤ position → p.keep position = true →
      D position kid kid' → E position kid kid') :
    p.Tracks E child child' kids kids' := by
  induction tracks with
  | nil => exact .nil _ _
  | keep keeps position related _ ih =>
      refine .keep keeps position (weaker _ _ _ (Nat.le_refl _) keeps related) (ih ?_)
      intro _ _ _ later
      exact weaker _ _ _ (Nat.le_of_succ_le later)
  | drop drops _ ih =>
      exact .drop drops (ih fun _ _ _ later => weaker _ _ _ (Nat.le_of_succ_le later))

/-- `D`, but `R` at one position. -/
def put (D : Nat → Kid → Kid → Prop) (position : Nat) (R : Kid → Kid → Prop) :
    Nat → Kid → Kid → Prop :=
  fun other => if other = position then R else D other

theorem put_self (D : Nat → Kid → Kid → Prop) (position : Nat) (R : Kid → Kid → Prop) :
    put D position R position = R := if_pos rfl

theorem put_ne (D : Nat → Kid → Kid → Prop) {position other : Nat} (R : Kid → Kid → Prop)
    (ne : other ≠ position) : put D position R other = D other := if_neg ne

/-- What is known at some positions is still known after the child at another has moved on. -/
theorem put_of_fresh {β : Type} {at_ : β → Nat} {others : List β} {position : Nat}
    (fresh : position ∉ others.map at_) {R S : Kid → Kid → Prop}
    (known : ∀ other ∈ others, ∀ kid kid', D (at_ other) kid kid' → S kid kid') :
    ∀ other ∈ others, ∀ kid kid', put D position R (at_ other) kid kid' → S kid kid' := by
  intro other member kid kid' holds
  have apart : at_ other ≠ position := fun same => fresh (List.mem_map.2 ⟨other, member, same⟩)
  rw [put_ne D R apart] at holds
  exact known other member kid kid' holds

/-- The relations after the children at some positions have moved on. -/
def putAll (D : Nat → Kid → Kid → Prop) (positions : List Nat) (R : Kid → Kid → Prop) :
    Nat → Kid → Kid → Prop :=
  fun position => if position ∈ positions then R else D position

theorem putAll_putAll {positions later : List Nat} {R S : Kid → Kid → Prop} {position : Nat}
    {kid kid' : Kid} (among : ∀ position ∈ positions, position ∈ later)
    (holds : putAll (putAll D positions S) later R position kid kid') :
    putAll D later R position kid kid' := by
  simp only [putAll] at holds ⊢
  split
  · rename_i inside
    rwa [if_pos inside] at holds
  · rename_i outside
    rwa [if_neg outside, if_neg fun there => outside (among position there)] at holds

theorem putAll_append {positions later : List Nat} {R : Kid → Kid → Prop} {position : Nat}
    {kid kid' : Kid} (holds : putAll (putAll D positions R) later R position kid kid') :
    putAll D (positions ++ later) R position kid kid' := by
  simp only [putAll] at holds ⊢
  by_cases first : position ∈ positions
  · rw [if_pos (List.mem_append_left later first)]
    rwa [if_pos first, ite_self] at holds
  · rw [if_neg first] at holds
    by_cases second : position ∈ later
    · rw [if_pos (List.mem_append_right positions second)]
      rwa [if_pos second] at holds
    · rw [if_neg fun inside => (List.mem_append.1 inside).elim first second]
      rwa [if_neg second] at holds

theorem putAll_cons {position other : Nat} {positions : List Nat} {R : Kid → Kid → Prop}
    {kid kid' : Kid} (holds : putAll (put D position R) positions R other kid kid') :
    putAll D (position :: positions) R other kid kid' := by
  simp only [putAll, put] at holds
  simp only [putAll]
  split at holds
  · rename_i later
    rwa [if_pos (List.mem_cons_of_mem _ later)]
  · split at holds
    · rename_i here
      rwa [if_pos (by simp [here])]
    · rename_i elsewhere apart
      rwa [if_neg (by simp [elsewhere, apart])]

theorem putAll_cons_of_drop {position other : Nat} (drop : p.keep position = false)
    (keep : p.keep other = true) {positions : List Nat} {R : Kid → Kid → Prop} {kid kid' : Kid}
    (holds : putAll D positions R other kid kid') :
    putAll D (position :: positions) R other kid kid' := by
  have apart : other ≠ position := fun same => by simp [same, drop] at keep
  have same : other ∈ position :: positions ↔ other ∈ positions := by
    rw [List.mem_cons]
    exact or_iff_right apart
  simp only [putAll] at holds ⊢
  simpa only [same] using holds

theorem Tracks.put_of_lt {R : Kid → Kid → Prop} (tracks : p.Tracks D child child' kids kids')
    {position : Nat} (before : position < child) :
    p.Tracks (put D position R) child child' kids kids' := by
  induction tracks with
  | nil => exact .nil _ _
  | keep keeps at_ related _ ih =>
      refine .keep keeps at_ ?_ (ih (Nat.lt_succ_of_lt before))
      rw [put_ne D R (by omega)]
      exact related
  | drop drops _ ih => exact .drop drops (ih (Nat.lt_succ_of_lt before))

/-- A child that takes part has a counterpart, and both may be replaced. -/
theorem Tracks.exists_counterpart (tracks : p.Tracks D child child' kids kids') {i position : Nat}
    (at_ : position = child + i) (keep : p.keep position = true) {kid : Kid}
    (found : kids[i]? = some kid) :
    ∃ i' kid', p.child position = child' + i' ∧ kids'[i']? = some kid' ∧ D position kid kid' ∧
      ∀ (R : Kid → Kid → Prop) (new new' : Kid), R new new' →
        p.Tracks (put D position R) child child' (kids.set i new) (kids'.set i' new') := by
  induction tracks generalizing i with
  | nil => simp at found
  | @keep child child' first first' rest rest' keeps number related rests ih =>
      cases i with
      | zero =>
          simp only [List.getElem?_cons_zero, Option.some.injEq] at found
          subst found at_
          refine ⟨0, first', number, rfl, related, fun R new new' replaced => ?_⟩
          refine .keep keeps number ?_ (rests.put_of_lt (Nat.lt_succ_self _))
          rw [put_self]
          exact replaced
      | succ i =>
          rw [List.getElem?_cons_succ] at found
          obtain ⟨i', kid', there, found', holds, replace⟩ := ih (by omega) found
          refine ⟨i' + 1, kid', by omega, found', holds, fun R new new' replaced => ?_⟩
          refine .keep keeps number ?_ (replace R new new' replaced)
          rw [put_ne D R (by omega)]
          exact related
  | @drop child child' first rest rest' drops rests ih =>
      cases i with
      | zero =>
          subst at_
          exact absurd (keep.symm.trans drops) (by simp)
      | succ i =>
          rw [List.getElem?_cons_succ] at found
          obtain ⟨i', kid', there, found', holds, replace⟩ := ih (by omega) found
          exact ⟨i', kid', there, found', holds, fun R new new' replaced =>
            .drop drops (replace R new new' replaced)⟩

/-- The children of two containers, all of them. -/
theorem Tracks.get (tracks : p.Tracks D 0 0 kids kids') {i : Nat} (keep : p.keep i = true)
    {kid : Kid} (found : kids[i]? = some kid) :
    ∃ kid', kids'[p.child i]? = some kid' ∧ D i kid kid' := by
  obtain ⟨i', kid', at_, found', holds, -⟩ :=
    tracks.exists_counterpart (Nat.zero_add i).symm keep found
  rw [Nat.zero_add] at at_
  exact ⟨kid', at_ ▸ found', holds⟩

theorem Tracks.set (tracks : p.Tracks D 0 0 kids kids') {i : Nat} (keep : p.keep i = true)
    {kid : Kid} (found : kids[i]? = some kid) {R : Kid → Kid → Prop} {new new' : Kid}
    (related : R new new') :
    p.Tracks (put D i R) 0 0 (kids.set i new) (kids'.set (p.child i) new') := by
  obtain ⟨i', kid', at_, -, -, replace⟩ :=
    tracks.exists_counterpart (Nat.zero_add i).symm keep found
  rw [Nat.zero_add] at at_
  rw [at_]
  exact replace R new new' related

theorem Tracks.set_of_drop (tracks : p.Tracks D child child' kids kids') {i position : Nat}
    (at_ : position = child + i) (drop : p.keep position = false) (new : Kid) :
    p.Tracks D child child' (kids.set i new) kids' := by
  induction tracks generalizing i with
  | nil => exact .nil _ _
  | keep keeps number related rests ih =>
      cases i with
      | zero =>
          subst at_
          exact absurd (keeps.symm.trans drop) (by simp)
      | succ i => exact .keep keeps number related (ih (by omega))
  | drop drops rests ih =>
      cases i with
      | zero => exact .drop drops rests
      | succ i => exact .drop drops (ih (by omega))

/-- A way to follow corresponding children through layout: what relates two lists of
children, position by position.  A child that takes part has a counterpart, and the two
may be replaced together. -/
structure Tracking (p : Pairing) where
  Holds : (Nat → Kid → Kid → Prop) → List Kid → List Kid → Prop
  mono {D E : Nat → Kid → Kid → Prop} {kids kids' : List Kid} (holds : Holds D kids kids')
    (weaker : ∀ position kid kid', p.keep position = true → D position kid kid' →
      E position kid kid') : Holds E kids kids'
  get {D : Nat → Kid → Kid → Prop} {kids kids' : List Kid} (holds : Holds D kids kids') {i : Nat}
    (keep : p.keep i = true) {kid : Kid} (found : kids[i]? = some kid) :
    ∃ kid', kids'[p.child i]? = some kid' ∧ D i kid kid'
  set {D : Nat → Kid → Kid → Prop} {kids kids' : List Kid} (holds : Holds D kids kids') {i : Nat}
    (keep : p.keep i = true) {kid : Kid} (found : kids[i]? = some kid) {R : Kid → Kid → Prop}
    {new new' : Kid} (related : R new new') :
    Holds (put D i R) (kids.set i new) (kids'.set (p.child i) new')
  set_of_drop {D : Nat → Kid → Kid → Prop} {kids kids' : List Kid} (holds : Holds D kids kids')
    {i : Nat} (drop : p.keep i = false) (new : Kid) : Holds D (kids.set i new) kids'

/-- Children whose counterparts stand in the same order. -/
def aligned (p : Pairing) : p.Tracking where
  Holds D kids kids' := p.Tracks D 0 0 kids kids'
  mono tracks weaker := tracks.mono fun position kid kid' _ => weaker position kid kid'
  get tracks _ keep _ found := tracks.get keep found
  set tracks _ keep _ found _ _ _ related := tracks.set keep found related
  set_of_drop tracks _ drop new := tracks.set_of_drop (Nat.zero_add _).symm drop new

end Pairing

end FlexLayout
