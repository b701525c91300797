/-
# FlexLayout.Proofs.Stages.Size -- giving corresponding items their main sizes

After flexing, layout reads of an item its target, its cross limits, whether it is in
flow, and which child it belongs to (`Item.Counterpart`).  Children that were
measured alike, with items of the same target, are laid out alike
(`giveMainSizes_coupled`), and from then on they agree down to the last descendant
(`Sized`).
-/
import FlexLayout.Line.Placement
import FlexLayout.Proofs.Lists
import FlexLayout.Proofs.Stages.Measure

namespace FlexLayout

set_option autoImplicit false

/-- Geometry that agrees, except for the coordinates. -/
def Sized (_ : Box) (fragment other : Fragment) : Prop := fragment.Agrees False False other

namespace Item

open Pairing

variable {p : Pairing}

/-- What layout reads of a flexed item is the same. -/
structure Counterpart (p : Pairing) (item other : Item) : Prop where
  child : other.child = p.child item.child
  target : other.target = item.target
  outOfFlow : other.outOfFlow = item.outOfFlow
  minCross : other.minCross = item.minCross
  maxCross : other.maxCross = item.maxCross

/-- The items that have counterparts correspond, in order. -/
def Counterparts (p : Pairing) (items others : List Item) : Prop :=
  List.Forall₂ (Counterpart p) (items.filter fun item => p.keep item.child) others

theorem counterpart_item (item : Item) : Counterpart p item (p.item item) :=
  ⟨rfl, rfl, rfl, rfl, rfl⟩

theorem counterparts_items (items : List Item) : Counterparts p items (p.items items) :=
  List.forall₂_map_right_iff.2 (List.forall₂_same.2 fun item _ => counterpart_item item)

theorem counterparts_same {items others : List Item}
    (related : List.Forall₂ (Counterpart same) items others) : Counterparts same items others := by
  simp only [Counterparts]
  rwa [filter_same]

/-- An item has a child to lay out. -/
def Seated (kids : List Kid) (item : Item) : Prop := item.child < kids.length

theorem Seated.exists_kid {kids : List Kid} {item : Item} (seated : item.Seated kids) :
    ∃ kid, kids[item.child]? = some kid :=
  ⟨kids.get ⟨item.child, seated⟩, List.getElem?_eq_getElem seated⟩

theorem Seated.of_length {kids kids' : List Kid} {item : Item} (seated : item.Seated kids)
    (length : kids'.length = kids.length) : item.Seated kids' :=
  Nat.lt_of_lt_of_eq seated length.symm

theorem Seated.set {kids : List Kid} {item : Item} (seated : item.Seated kids) (position : Nat)
    (kid : Kid) : item.Seated (kids.set position kid) :=
  seated.of_length List.length_set

/-- **A child and its counterpart are given their main size alike.** -/
theorem giveMainSize_coupled (Γ : Coupling) {axes : Axes} {item other : Item}
    (counterpart : Counterpart p item other) {kid kid' : Kid}
    (pair : kid.Pair Γ (Measured Γ axes) kid') :
    Γ.Holds (fun a b => a.Pair Γ Sized b) (giveMainSize axes item kid)
      (giveMainSize axes other kid') := by
  have agrees : kid.frame.Agrees False False kid'.frame := pair.related.1
  have below := pair.related.2
  unfold giveMainSize
  rw [counterpart.target]
  cases horizontal : axes.horizontal with
  | true =>
      rw [horizontal, if_pos rfl] at below
      have surround : kid'.frame.horizontalSurround = kid.frame.horizontalSurround :=
        agrees.same Frame.horizontalSurround fun _ _ _ => rfl
      rw [if_pos rfl, if_pos rfl, surround]
      let width := max 0 (item.target - kid.frame.horizontalSurround)
      have sized : ({ kid.frame with width := some width } : Frame).Agrees False False
          { kid'.frame with width := some width } := { agrees with width := rfl }
      refine Γ.bind (pair.layOut sized below width) fun fragment other' same => Γ.pure ?_
      refine pair.withFragment (S := Sized) ⟨?_, same.children⟩
      have height : (other'.frame.height.getD (other'.flowHeight kid'.box.children)) =
          fragment.frame.height.getD (fragment.flowHeight kid.box.children) := by
        rw [pair.children, same.flowHeight, same.frame.height]
      exact { same.frame with height := congrArg some height }
  | false =>
      rw [horizontal, if_neg Bool.false_ne_true] at below
      have surround : kid'.frame.verticalSurround = kid.frame.verticalSurround :=
        agrees.same Frame.verticalSurround fun _ _ _ => rfl
      rw [if_neg Bool.false_ne_true, if_neg Bool.false_ne_true, surround]
      have height : kid'.frame.height = kid.frame.height := agrees.height
      have width : kid'.frame.width.getD 0 = kid.frame.width.getD 0 := by rw [agrees.width]
      dsimp only
      rw [height, width]
      by_cases unchanged : kid.frame.height = some (max 0 (item.target - kid.frame.verticalSurround))
      · rw [if_pos unchanged, if_pos unchanged]
        exact Γ.pure { pair with related := ⟨agrees, below⟩ }
      · rw [if_neg unchanged, if_neg unchanged]
        have sized : ({ kid.frame with
            height := some (max 0 (item.target - kid.frame.verticalSurround)) } : Frame).Agrees
            False False { kid'.frame with
              height := some (max 0 (item.target - kid.frame.verticalSurround)) } :=
          { agrees with height := rfl }
        have same : Γ.Below kid.box kid.fragment.children kid'.fragment.children := by
          rw [below]
          exact Γ.below_refl kid.box _
        refine Γ.bind (pair.layOut sized same _) fun fragment other' agrees' => Γ.pure ?_
        exact pair.withFragment (S := Sized) agrees'

/-! ## The items of a line -/

def SizedAlike (p : Pairing) (entry other : Item × Frame) : Prop :=
  Counterpart p entry.1 other.1 ∧ entry.2.Agrees False False other.2

theorem giveMainSizes_cons {axes : Axes} {item : Item} {rest : List Item} {kids : List Kid}
    {kid : Kid} (found : kids[item.child]? = some kid) :
    giveMainSizes axes (item :: rest) kids = (do
      let kid ← giveMainSize axes item kid
      let (sized, kids) ← giveMainSizes axes rest (kids.set item.child kid)
      return ((item, kid.frame) :: sized, kids)) := by
  rw [giveMainSizes, found]

theorem giveMainSizes_facing (axes : Axes) (reversed : Bool) (items : List Item) (kids : List Kid) :
    giveMainSizes (axes.facing reversed) items kids = giveMainSizes axes items kids := by
  induction items generalizing kids with
  | nil => rfl
  | cons item rest ih =>
      simp only [giveMainSizes, ih]
      rfl

/-- **Corresponding items are given their main sizes alike.** -/
theorem giveMainSizes_coupled (Γ : Coupling) {axes : Axes} {items others : List Item}
    {kids kids' : List Kid} {D : Nat → Kid → Kid → Prop} {τ : p.Tracking}
    (tracks : τ.Holds D kids kids')
    (counterparts : Counterparts p items others) (nodup : (items.map Item.child).Nodup)
    (seated : ∀ item ∈ items, item.Seated kids)
    (measured : ∀ item ∈ items, ∀ kid kid', D item.child kid kid' → kid.Pair Γ (Measured Γ axes) kid')
    (dropped : ∀ i, p.keep i = false → Γ.drops) :
    Γ.Holds (fun a b =>
        List.Forall₂ (SizedAlike p) (a.1.filter fun entry => p.keep entry.1.child) b.1 ∧
          τ.Holds (putAll D (items.map Item.child) fun kid kid' => kid.Pair Γ Sized kid') a.2 b.2)
      (giveMainSizes axes items kids) (giveMainSizes axes others kids') := by
  induction items generalizing others kids kids' D with
  | nil =>
      cases counterparts
      exact Γ.pure ⟨.nil, tracks⟩
  | cons item rest ih =>
      obtain ⟨fresh, nodup⟩ := List.nodup_cons.1 nodup
      obtain ⟨kid, found⟩ := (seated item List.mem_cons_self).exists_kid
      rw [giveMainSizes_cons found]
      obtain ⟨-, seated⟩ := List.forall_mem_cons.1 seated
      obtain ⟨measured, measured'⟩ := List.forall_mem_cons.1 measured
      cases keep : p.keep item.child with
      | true =>
          simp only [Counterparts] at counterparts
          rw [List.filter_cons, if_pos keep] at counterparts
          cases counterparts with
          | @cons _ other _ others first later =>
              obtain ⟨kid', found', related⟩ := τ.get tracks keep found
              rw [← first.child] at found'
              rw [giveMainSizes_cons found']
              have pair := measured kid kid' related
              apply Γ.bind (giveMainSize_coupled Γ first pair)
              intro a b sized
              have moved := τ.set tracks keep found (R := fun kid kid' => kid.Pair Γ Sized kid') sized
              rw [← first.child] at moved
              refine Γ.bind (ih moved later nodup (fun other member => (seated other member).set _ a)
                (put_of_fresh fresh measured')) ?_
              rintro c d ⟨entries, tracks'⟩
              refine Γ.pure ⟨?_, ?_⟩
              · rw [List.filter_cons, if_pos keep]
                exact .cons ⟨first, sized.related.frame⟩ entries
              · rw [List.map_cons]
                exact τ.mono tracks' fun _ _ _ _ holds => putAll_cons holds
      | false =>
          simp only [Counterparts] at counterparts
          rw [List.filter_cons, if_neg (by simp [keep])] at counterparts
          -- The other container has no such child, so it does nothing meanwhile.
          apply Γ.pass (dropped item.child keep) (Run.ensures_true _)
          intro a _
          have moved := τ.set_of_drop tracks keep a
          rw [← bind_pure (giveMainSizes axes others kids')]
          refine Γ.bind (ih moved counterparts nodup
            (fun other member => (seated other member).set _ a) measured') ?_
          rintro c d ⟨entries, tracks'⟩
          refine Γ.pure ⟨?_, ?_⟩
          · rw [List.filter_cons, if_neg (by simp [keep])]
            exact entries
          · rw [List.map_cons]
            exact τ.mono tracks' fun _ _ _ kept holds => putAll_cons_of_drop keep kept holds

theorem giveMainSizes_ensures (axes : Axes) {items : List Item} {kids : List Kid}
    (seated : ∀ item ∈ items, item.Seated kids) :
    Run.Ensures (fun a => a.1.map Prod.fst = items ∧ a.2.length = kids.length)
      (giveMainSizes axes items kids) := by
  induction items generalizing kids with
  | nil => exact Run.ensures_pure ⟨rfl, rfl⟩
  | cons item rest ih =>
      obtain ⟨kid, found⟩ := (seated item List.mem_cons_self).exists_kid
      rw [giveMainSizes_cons found]
      refine Run.ensures_bind (Run.ensures_true _) ?_
      intro new _
      refine Run.ensures_bind (ih fun other member => ?_) fun a ⟨sized, length⟩ => ?_
      · exact (seated other (List.mem_cons_of_mem item member)).set _ _
      · refine Run.ensures_pure ⟨?_, ?_⟩
        · rw [List.map_cons, sized]
        · rw [length, List.length_set]

end Item

end FlexLayout
