/-
# FlexLayout.Proofs.Stages.Measure -- measuring the children of two containers

Children whose old geometry layout does not look at are measured alike
(`measure_coupled`), and the items of the second container are the counterparts of
the items of the first (`measureAll_coupled`).

In a row the children keep what is below them for now; in a column they have been
laid out, so from here on nothing below them differs (`Measured`).
-/
import FlexLayout.Item.Measure
import FlexLayout.Proofs.Children.Alike
import FlexLayout.Proofs.Children.Pairing

namespace FlexLayout

set_option autoImplicit false

/-- The same axis, with main-start at a given end. -/
def Axes.facing (axes : Axes) (reversed : Bool) : Axes := { axes with reversed := reversed }

/-- Two containers whose items are laid out by the same rules along the same axis, from
the same end or from opposite ends, in spaces that may differ. -/
structure Container.Akin (container other : Container) : Prop where
  horizontal : other.axes.horizontal = container.axes.horizontal
  contentWidth : other.contentWidth = container.contentWidth
  mainGap : other.mainGap = container.mainGap
  crossGap : other.crossGap = container.crossGap
  justify : other.style.justify = container.style.justify
  alignItems : other.style.alignItems = container.style.alignItems
  wrap : other.style.wrap = container.style.wrap
  padding : other.frame.padding = container.frame.padding

/-- Two containers whose items are laid out by the same rules and from the same end, in
spaces that may differ. -/
structure Container.Alike (container other : Container) : Prop extends container.Akin other where
  axes : other.axes = container.axes
  horizontal := congrArg Axes.horizontal axes

theorem Container.alike_refl (container : Container) : container.Alike container :=
  ⟨⟨rfl, rfl, rfl, rfl, rfl, rfl, rfl, rfl⟩, rfl⟩

theorem Axes.eq_facing {axes other : Axes} (horizontal : other.horizontal = axes.horizontal) :
    other = axes.facing other.reversed := by
  cases other
  subst horizontal
  rfl

/-- Only the end at which the axis starts may differ. -/
theorem Container.Akin.facing {container other : Container} (akin : container.Akin other) :
    ∃ reversed, other.axes = container.axes.facing reversed :=
  ⟨_, Axes.eq_facing akin.horizontal⟩

/-- Geometry before layout: only what is below the box counts. -/
def Fresh (Γ : Coupling) (box : Box) (fragment other : Fragment) : Prop :=
  Γ.Below box fragment.children other.children

/-- Geometry after measuring. -/
def Measured (Γ : Coupling) (axes : Axes) (box : Box) (fragment other : Fragment) : Prop :=
  fragment.frame.Agrees False False other.frame ∧
    if axes.horizontal then Γ.Below box fragment.children other.children
    else other.children = fragment.children

def Same (_ : Box) (fragment other : Fragment) : Prop := other = fragment

/-- A child on entry: the geometry of a flex item does not matter. -/
def Item.Entry (Γ : Coupling) (box : Box) (fragment other : Fragment) : Prop :=
  if box.participates then Fresh Γ box fragment other else other = fragment

theorem Item.entry_refl {Γ : Coupling} (box : Box) (fragment : Fragment) :
    Item.Entry Γ box fragment fragment := by
  rw [Item.Entry]
  split
  · exact Γ.below_refl box _
  · rfl

structure Kid.Enters (Γ : Coupling) (p : Pairing) (kid kid' : Kid) : Prop extends
    kid.Pair Γ (Item.Entry Γ) kid' where
  order : kid'.box.style.order = p.order kid.box.style.order

theorem Kid.Enters.fresh {Γ : Coupling} {p : Pairing} {kid kid' : Kid} (enters : kid.Enters Γ p kid')
    (participates : kid.box.participates = true) : kid.Pair Γ (Fresh Γ) kid' := by
  have related := enters.related
  rw [Item.Entry, if_pos participates] at related
  exact { enters with related := related }

theorem Kid.Enters.same {Γ : Coupling} {p : Pairing} {kid kid' : Kid} (enters : kid.Enters Γ p kid')
    (aside : kid.box.participates = false) : kid.Pair Γ Same kid' := by
  have related := enters.related
  rw [Item.Entry, aside, if_neg Bool.false_ne_true] at related
  exact { enters with related := related }

namespace Item

variable {resolve : Resolver} {container other : Container} {p : Pairing}

/-- The basis of a style is the same in both containers. -/
def BasisAlike (resolve : Resolver) (container other : Container) (style : Style) : Prop :=
  ∀ sized : Frame, basisOf resolve other style sized = basisOf resolve container style sized

theorem basisOf_ordered [resolve.OrderBlind] (container : Container) (style : Style) (order : Int)
    (sized : Frame) :
    basisOf resolve container (style.ordered order) sized = basisOf resolve container style sized := by
  simp only [basisOf]
  rw [style.resolve_ordered resolve]
  rfl

theorem ofBox_item [resolve.OrderBlind] (akin : container.Akin other) {box : Box}
    (basis : BasisAlike resolve container other box.style) {child index : Nat} {order : Int}
    (line : p.line 0 = 0) (ordered : order = p.order box.style.order)
    {sized sized' laid laid' : Frame} (sizes : sized.Agrees False False sized')
    (laids : laid.Agrees False False laid') :
    ofBox resolve other (p.child child) (p.index child index) (box.ordered order) sized' laid' =
      p.item (ofBox resolve container child index box sized laid) := by
  have bases : ∀ sized, basisOf resolve other (box.style.ordered order) sized =
      basisOf resolve container box.style sized := fun sized =>
    (basisOf_ordered other box.style order sized).trans (basis sized)
  obtain ⟨reversed, axes⟩ := akin.facing
  rw [sizes.moved, laids.moved]
  simp only [ofBox, Pairing.item, Box.ordered]
  simp only [axes, akin.contentWidth, bases, Style.limits_ordered]
  rw [line, show (box.style.ordered order).order = p.order box.style.order from ordered]
  rfl

theorem fittedWidth_alike (akin : container.Akin other) (order : Int) (box : Box)
    {sized sized' : Frame} (agrees : sized.Agrees False False sized') :
    fittedWidth other (box.ordered order) sized' = fittedWidth container box sized := by
  rw [agrees.moved]
  simp only [fittedWidth]
  rw [akin.contentWidth]
  rfl

/-- **A child and its counterpart are measured alike.** -/
theorem measure_coupled [resolve.OrderBlind] (Γ : Coupling) (akin : container.Akin other) (line : p.line 0 = 0)
    (child index : Nat) {kid kid' : Kid} (pair : kid.Pair Γ (Fresh Γ) kid')
    (ordered : kid'.box.style.order = p.order kid.box.style.order)
    (basis : BasisAlike resolve container other kid.box.style) :
    Γ.Holds (fun a b => b.1 = p.item a.1 ∧ a.2.Pair Γ (Measured Γ container.axes) b.2)
      (measure resolve container child index kid)
      (measure resolve other (p.child child) (p.index child index) kid') := by
  let sized := kid.frame.withSizes resolve kid.box.style container.contentWidth
  let sized' := kid'.frame.withSizes resolve kid.box.style container.contentWidth
  obtain ⟨order, box⟩ := pair.box
  rw [box] at ordered
  have sizes : sized.Agrees False False sized' :=
    (Frame.Agrees.withSizes _ _ _ _ _).mono False.elim False.elim
  have below : Γ.Below kid.box kid.fragment.children kid'.fragment.children := pair.related
  unfold measure
  rw [akin.horizontal, akin.contentWidth, box,
    show kid'.frame.withSizes resolve (kid.box.ordered order).style container.contentWidth = sized'
      from Style.withSizes_ordered resolve _ order _ _]
  dsimp only
  cases horizontal : container.axes.horizontal with
  | true =>
      refine Γ.pure ⟨ofBox_item akin basis line ordered sizes sizes, pair.withFragment ⟨sizes, ?_⟩⟩
      rw [horizontal, if_pos rfl]
      exact below
  | false =>
      rw [if_neg Bool.false_ne_true, if_neg Bool.false_ne_true, fittedWidth_alike akin order _ sizes]
      let width := fittedWidth container kid.box sized
      have fitted : ({ sized with width := some width } : Frame).Agrees False False
          { sized' with width := some width } := { sizes with width := rfl }
      refine Γ.bind (pair.layOut fitted below width) fun fragment other' agrees => Γ.pure ?_
      refine ⟨ofBox_item akin basis line ordered sizes agrees.frame, pair.withFragment ⟨agrees.frame, ?_⟩⟩
      rw [horizontal, if_neg Bool.false_ne_true]
      exact agrees.children

/-! ## All children -/

end Item

namespace Pairing

variable (p : Pairing)

/-- The pairing numbers the items of the children that take part one after the
other, from given numbers on. -/
def Numbers : (child index index' : Nat) → List Box → Prop
  | _, _, _, [] => True
  | child, index, index', box :: boxes =>
      (p.keep child = true → box.participates = true → p.index child index = index') ∧
        Numbers (child + 1) (index + box.participates.toNat)
          (index' + (p.keep child && box.participates).toNat) boxes

/-- Children on the list of positions are related by `R`, others are the same. -/
def Among (Γ : Coupling) (positions : List Nat) (R : Box → Fragment → Fragment → Prop) :
    Nat → Kid → Kid → Prop :=
  putAll (fun _ kid kid' => kid.Pair Γ Same kid') positions fun kid kid' => kid.Pair Γ R kid'

theorem among_of_mem {Γ : Coupling} {positions : List Nat} {R : Box → Fragment → Fragment → Prop}
    {position : Nat} (member : position ∈ positions) {kid kid' : Kid} :
    Among Γ positions R position kid kid' ↔ kid.Pair Γ R kid' := by
  simp only [Among, putAll]
  rw [if_pos member]

theorem among_of_not_mem {Γ : Coupling} {positions : List Nat}
    {R : Box → Fragment → Fragment → Prop} {position : Nat} (outside : position ∉ positions)
    {kid kid' : Kid} : Among Γ positions R position kid kid' ↔ kid.Pair Γ Same kid' := by
  simp only [Among, putAll]
  rw [if_neg outside]

theorem among_of_lt {Γ : Coupling} {R : Box → Fragment → Fragment → Prop} {positions : List Nat}
    {first position : Nat} (later : first + 1 ≤ position) {kid kid' : Kid}
    (among : Among Γ positions R position kid kid') :
    Among Γ (first :: positions) R position kid kid' := by
  by_cases member : position ∈ positions
  · rw [among_of_mem (List.mem_cons_of_mem first member)]
    exact (among_of_mem member).1 among
  · have outside : position ∉ first :: positions := by
      rw [List.mem_cons]
      exact not_or.2 ⟨by omega, member⟩
    rw [among_of_not_mem outside]
    exact (among_of_not_mem member).1 among

end Pairing

namespace Item

open Pairing

variable {resolve : Resolver} {container other : Container} {p : Pairing}

/-- Items numbered as the children they belong to, from a child and an item number
on. -/
structure Numbered (child index : Nat) (kids : List Kid) (items : List Item) : Prop where
  ordered : items.Pairwise fun a b => a.child < b.child ∧ a.index < b.index
  child_le : ∀ item ∈ items, child ≤ item.child
  index_le : ∀ item ∈ items, index ≤ item.index
  kid : ∀ item ∈ items, ∃ kid, kids[item.child - child]? = some kid ∧
    item.outOfFlow = kid.box.outOfFlow

theorem measure_numbered (child index : Nat) (kid : Kid) :
    Run.Ensures (fun a => a.1.child = child ∧ a.1.index = index ∧
      a.1.outOfFlow = kid.box.outOfFlow) (measure resolve container child index kid) := by
  simp only [measure]
  split
  · exact Run.ensures_pure ⟨rfl, rfl, rfl⟩
  · exact Run.ensures_bind (Run.ensures_true _) fun _ _ => Run.ensures_pure ⟨rfl, rfl, rfl⟩

theorem Numbered.skip {child index : Nat} {kid : Kid} {kids : List Kid} {items : List Item}
    (numbered : Numbered (child + 1) index kids items) : Numbered child index (kid :: kids) items where
  ordered := numbered.ordered
  child_le item member := Nat.le_of_succ_le (numbered.child_le item member)
  index_le := numbered.index_le
  kid item member := by
    have later := numbered.child_le item member
    obtain ⟨kid, found, flow⟩ := numbered.kid item member
    refine ⟨kid, ?_, flow⟩
    rw [show item.child - child = item.child - (child + 1) + 1 by omega, List.getElem?_cons_succ]
    exact found

theorem Numbered.cons {child index : Nat} {kid : Kid} {kids : List Kid} {items : List Item}
    (numbered : Numbered (child + 1) (index + 1) kids items) {item : Item}
    (at_ : item.child = child) (number : item.index = index)
    (flow : item.outOfFlow = kid.box.outOfFlow) :
    Numbered child index (kid :: kids) (item :: items) where
  ordered := by
    refine List.pairwise_cons.2 ⟨fun other member => ?_, numbered.ordered⟩
    have := numbered.child_le other member
    have := numbered.index_le other member
    omega
  child_le := List.forall_mem_cons.2 ⟨Nat.le_of_eq at_.symm,
    (numbered.skip : Numbered child (index + 1) (kid :: kids) items).child_le⟩
  index_le := List.forall_mem_cons.2 ⟨Nat.le_of_eq number.symm, fun other member =>
    Nat.le_of_succ_le (numbered.index_le other member)⟩
  kid := by
    refine List.forall_mem_cons.2 ⟨⟨kid, ?_, flow⟩,
      (numbered.skip : Numbered child (index + 1) (kid :: kids) items).kid⟩
    rw [at_, Nat.sub_self, List.getElem?_cons_zero]

/-- Measuring numbers the items, and no child comes or goes. -/
theorem measureAll_numbered (child index : Nat) (kids : List Kid) :
    Run.Ensures (fun a => Numbered child index kids a.1 ∧ a.2.length = kids.length)
      (measureAll resolve container child index kids) := by
  induction kids generalizing child index with
  | nil => exact Run.ensures_pure ⟨⟨.nil, by simp, by simp, by simp⟩, rfl⟩
  | cons kid rest ih =>
      rw [measureAll]
      split
      · refine Run.ensures_bind (measure_numbered child index kid) fun a ⟨at_, number, flow⟩ => ?_
        refine Run.ensures_bind (ih (child + 1) (index + 1)) fun b ⟨numbered, length⟩ => ?_
        exact Run.ensures_pure ⟨numbered.cons at_ number flow, congrArg (· + 1) length⟩
      · refine Run.ensures_bind (ih (child + 1) index) fun b ⟨numbered, length⟩ => ?_
        exact Run.ensures_pure ⟨numbered.skip, congrArg (· + 1) length⟩

theorem measureAll_all (child index : Nat) (kids : List Kid) :
    Run.Ensures (fun a => ∀ (i : Nat) (kid : Kid), kids[i]? = some kid → kid.box.participates = true →
        ∃ item ∈ a.1, item.child = child + i)
      (measureAll resolve container child index kids) := by
  induction kids generalizing child index with
  | nil => exact Run.ensures_pure fun i kid found => by simp at found
  | cons first rest ih =>
      have shift {items : List Item} (later : ∀ (i : Nat) (kid : Kid), rest[i]? = some kid →
          kid.box.participates = true → ∃ item ∈ items, item.child = child + 1 + i)
          {i : Nat} {kid : Kid} (found : (first :: rest)[i + 1]? = some kid)
          (participates : kid.box.participates = true) :
          ∃ item ∈ items, item.child = child + (i + 1) := by
        obtain ⟨item, member, at_⟩ := later i kid found participates
        exact ⟨item, member, by omega⟩
      rw [measureAll]
      split
      · refine Run.ensures_bind (measure_numbered child index first) fun a here => ?_
        refine Run.ensures_bind (ih (child + 1) (index + 1)) fun b later => Run.ensures_pure ?_
        intro i kid found participates
        cases i with
        | zero => exact ⟨a.1, List.mem_cons_self, here.1⟩
        | succ i =>
            obtain ⟨item, member, at_⟩ := shift later found participates
            exact ⟨item, List.mem_cons_of_mem _ member, at_⟩
      · rename_i none
        refine Run.ensures_bind (ih (child + 1) index) fun b later => Run.ensures_pure ?_
        intro i kid found participates
        cases i with
        | zero =>
            obtain rfl : first = kid := Option.some.inj found
            exact absurd participates none
        | succ i => exact shift later found participates

theorem measureAll_length (child index : Nat) (kids : List Kid) :
    Run.Ensures (fun a => a.1.length ≤ kids.length) (measureAll resolve container child index kids) := by
  induction kids generalizing child index with
  | nil => exact Run.ensures_pure (Nat.le_refl 0)
  | cons kid rest ih =>
      rw [measureAll]
      split
      · refine Run.ensures_bind (Run.ensures_true _) fun a _ => ?_
        exact Run.ensures_bind (ih (child + 1) (index + 1)) fun b few =>
          Run.ensures_pure (Nat.succ_le_succ few)
      · exact Run.ensures_bind (ih (child + 1) index) fun b few =>
          Run.ensures_pure (Nat.le_succ_of_le few)

/-- **The items of the second container are the counterparts of those of the
first.** -/
theorem measureAll_coupled [resolve.OrderBlind] (Γ : Coupling) (akin : container.Akin other)
    (line : p.line 0 = 0) {child child' index index' : Nat} {kids kids' : List Kid}
    (tracks : p.Tracks (fun _ kid kid' => kid.Enters Γ p kid') child child' kids kids')
    (numbers : p.Numbers child index index' (kids.map Kid.box))
    (dropped : ∀ i, p.keep i = false → Γ.drops)
    (basis : ∀ kid ∈ kids, kid.box.participates = true →
      BasisAlike resolve container other kid.box.style) :
    Γ.Holds (fun a b => b.1 = p.items a.1 ∧
        p.Tracks (Among Γ (a.1.map Item.child) (Measured Γ container.axes)) child child' a.2 b.2)
      (measureAll resolve container child index kids)
      (measureAll resolve other child' index' kids') := by
  -- Along both lists of children. Only those that take part use up a number.
  induction tracks generalizing index index' with
  | nil => exact Γ.pure ⟨rfl, .nil _ _⟩
  | @keep child child' kid kid' rest rest' keeps position related rests ih =>
      obtain ⟨number, numbers⟩ := numbers
      have basis' := fun kid member => basis kid (List.mem_cons_of_mem _ member)
      rw [measureAll, measureAll, related.participates]
      rw [keeps, Bool.true_and] at numbers
      cases participates : kid.box.participates with
      | true =>
          rw [participates] at numbers
          rw [if_pos rfl, if_pos rfl, ← position, ← number keeps participates]
          have first := measure_coupled Γ akin line child index (related.fresh participates)
            related.order (basis kid List.mem_cons_self participates)
          apply Γ.bind (Γ.ensure first (measure_numbered child index kid) (Run.ensures_true _))
          intro a b ⟨⟨sameItem, measured⟩, at_, _⟩
          rw [position]
          apply Γ.bind (ih (by simpa [number keeps participates] using numbers) basis')
          intro c d ⟨sameItems, later⟩
          refine Γ.pure ⟨?_, .keep keeps position ?_ ?_⟩
          · rw [p.items_cons_of_keep (at_.1 ▸ keeps), sameItem, sameItems]
          · rw [among_of_mem (by simp [at_.1])]
            exact measured
          · rw [List.map_cons, at_.1]
            exact later.mono fun _ _ _ lt _ among => among_of_lt lt among
      | false =>
          rw [participates] at numbers
          rw [if_neg Bool.false_ne_true, if_neg Bool.false_ne_true]
          have rests' := ih numbers basis'
          apply Γ.bind (Γ.ensure rests' (measureAll_numbered _ _ _) (Run.ensures_true _))
          intro c d ⟨⟨sameItems, later⟩, ⟨numbered, _⟩, _⟩
          refine Γ.pure ⟨sameItems, .keep keeps position ?_ later⟩
          have apart : child ∉ c.1.map Item.child := by
            intro member
            obtain ⟨item, among, at_⟩ := List.mem_map.1 member
            have := numbered.child_le item among
            omega
          rw [among_of_not_mem apart]
          exact related.same participates
  | @drop child child' kid rest rest' drops rests ih =>
      obtain ⟨-, numbers⟩ := numbers
      have basis' := fun kid member => basis kid (List.mem_cons_of_mem _ member)
      rw [drops, Bool.false_and] at numbers
      rw [measureAll, ← bind_pure (measureAll resolve other child' index' rest')]
      cases participates : kid.box.participates with
      | true =>
          rw [participates] at numbers
          rw [if_pos rfl]
          apply Γ.pass (dropped child drops) (measure_numbered child index kid)
          rintro a ⟨at_, -, -⟩
          refine Γ.bind (ih numbers basis') fun c d ⟨sameItems, later⟩ => Γ.pure ⟨?_, ?_⟩
          · rw [p.items_cons_of_drop (at_ ▸ drops), sameItems]
          · refine .drop drops ?_
            rw [List.map_cons, at_]
            exact later.mono fun _ _ _ lt _ among => among_of_lt lt among
      | false =>
          rw [participates] at numbers
          rw [if_neg Bool.false_ne_true]
          refine Γ.bind (ih numbers basis') fun c d ⟨sameItems, later⟩ => Γ.pure ⟨sameItems, ?_⟩
          exact .drop drops later

end Item

end FlexLayout
