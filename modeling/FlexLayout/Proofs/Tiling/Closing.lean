/-
# FlexLayout.Proofs.Tiling.Closing -- what closing makes of each item

Every child that takes part has one item, on one line (`Container.flow_seats`).  So what
aligning an item makes of its child is what is left of it in the end
(`Flow.close_each`).
-/
import FlexLayout.Proofs.Stages.Close
import FlexLayout.Proofs.Tiling.Placing

namespace FlexLayout

set_option autoImplicit false

variable {container : Container} {resolve : Resolver} {kids : List Kid}

/-- The items on the lines of a container and its children: no child has two items, every
item has a child, and every child that takes part has an item. -/
structure Flow.Seats (kids : List Kid) (flow : Flow) : Prop where
  nodup : (childrenOf flow.lines).Nodup
  seated : ∀ item ∈ flow.lines.flatMap FilledLine.items, item.Seated flow.kids
  listed : ∀ (i : Nat) (kid : Kid), kids[i]? = some kid → kid.box.participates = true →
    i ∈ childrenOf flow.lines

namespace Container

/-- **Items are aligned one by one**, and the other children are left alone. -/
theorem alignAll_each {R : Line → Item → Kid → Kid → Prop} {entries : List (Line × Item)}
    (nodup : (entries.map fun entry => entry.2.child).Nodup)
    (each : ∀ entry ∈ entries, entry.2.With
      (fun item kid => Run.Ensures (R entry.1 item kid)
        (alignKid resolve container entry.1 item kid)) kids) :
    Run.Ensures (fun after => (∀ entry ∈ entries, entry.2.Becomes (R entry.1) kids after) ∧
        ∀ i, i ∉ (entries.map fun entry => entry.2.child) → after[i]? = kids[i]?)
      (alignAll resolve container entries kids) := by
  induction entries generalizing kids with
  | nil => exact Run.ensures_pure ⟨fun _ member => absurd member List.not_mem_nil, fun _ _ => rfl⟩
  | cons entry rest ih =>
      obtain ⟨line, item⟩ := entry
      obtain ⟨fresh, nodup⟩ := List.nodup_cons.1 nodup
      obtain ⟨⟨kid, found, ensures⟩, eachs⟩ := List.forall_mem_cons.1 each
      have inside : item.child < kids.length := (List.getElem?_eq_some_iff.1 found).1
      have apart {other : Line × Item} (member : other ∈ rest) : other.2.child ≠ item.child :=
        fun same => fresh (List.mem_map.2 ⟨other, member, same⟩)
      rw [alignAll_cons resolve found]
      refine Run.ensures_bind ensures fun after became => ?_
      refine (ih nodup fun other member => (eachs other member).set (apart member) after).mono ?_
      rintro last ⟨becomes, rests⟩
      refine ⟨List.forall_mem_cons.2 ⟨⟨kid, after, found, ?_, became⟩, fun other member => ?_⟩,
        fun i out => ?_⟩
      · rw [rests _ fresh, List.getElem?_set_self inside]
      · exact (becomes other member).of_set (apart member)
      · rw [List.map_cons, List.mem_cons, not_or] at out
        rw [rests i out.2, List.getElem?_set_ne (Ne.symm out.1)]

/-- **The items on the lines of a container stand for the children that take part.** -/
theorem flow_seats (resolve : Resolver) (style : Style) (frame : Frame) (kids : List Kid)
    (available : Int) :
    Run.Ensures (Flow.Seats kids) (flow resolve style frame kids available) := by
  simp only [flow]
  refine Run.ensures_bind ((Item.measureAll_numbered 0 0 kids).and
    (Item.measureAll_all 0 0 kids)) ?_
  rintro ⟨items, sized⟩ ⟨⟨numbered, length⟩, all⟩
  obtain ⟨nodup, sorted⟩ := sorted_facts numbered
  have broken := Line.items_flatMap_breakAll (prepare resolve style frame available).breaking
    (Item.sortByOrder items)
  have seated : ∀ item ∈ (Line.breakAll (prepare resolve style frame available).breaking
      (Item.sortByOrder items)).flatMap FilledLine.items, item.Seated sized := by
    rw [broken]
    exact fun item member => (sorted item member).2.of_length length
  refine Run.ensures_bind (Line.placeAll_ensures _ 0 seated) ?_
  rintro ⟨lines, laid⟩ ⟨kept, length'⟩
  have children := Line.map_child_placed kept
  have listed : childrenOf lines = (Item.sortByOrder items).map Item.child := by
    rw [childrenOf, children, broken]
  refine Run.ensures_pure ⟨?_, ?_, ?_⟩
  · rwa [listed]
  · exact Line.seated_of_children children fun item member =>
      (seated item member).of_length length'
  · intro i kid found participates
    obtain ⟨item, member, at_⟩ := all i kid found participates
    rw [listed, ← (show item.child = i by omega)]
    exact List.mem_map_of_mem ((Item.sortByOrder_perm items).mem_iff.2 member)

end Container

/-- **What aligning makes of each item is what closing a container leaves of it.** -/
theorem Flow.close_each {flow : Flow} {R : Line → Item → Kid → Kid → Prop}
    (nodup : (childrenOf flow.lines).Nodup)
    (each : ∀ filled ∈ Line.spreadLines flow.container flow.crossSize flow.lines,
      ∀ item ∈ filled.items, item.With (fun item kid => Run.Ensures (R filled.line item kid)
        (Container.alignKid resolve flow.container filled.line item kid)) flow.kids) :
    Run.Ensures (fun result =>
        result.frame = flow.container.finalFrame flow.mainSize flow.crossSize ∧
        ∃ after : List Kid, result.children = after.map Kid.fragment ∧
          ∀ filled ∈ Line.spreadLines flow.container flow.crossSize flow.lines,
            ∀ item ∈ filled.items, item.Becomes (R filled.line) flow.kids after)
      (flow.close resolve) := by
  let spread := Line.spreadLines flow.container flow.crossSize flow.lines
  have positions : ((Container.seats spread).map fun entry => entry.2.child) =
      childrenOf flow.lines := by
    rw [childrenOf, ← Container.flatMap_items_spreadLines flow.container flow.crossSize flow.lines,
      ← Container.map_snd_seats, List.map_map]
    rfl
  have aligned : Run.Ensures _ (flow.container.align resolve flow.crossSize flow.lines flow.kids) :=
    Container.alignAll_each (R := R) (positions ▸ nodup) <| by
      intro entry member
      obtain ⟨filled, among, inside⟩ := List.mem_flatMap.1 member
      obtain ⟨item, there, rfl⟩ := List.mem_map.1 inside
      exact each filled among item there
  refine Run.ensures_bind aligned ?_
  rintro after ⟨becomes, -⟩
  refine Run.ensures_pure ⟨rfl, after, rfl, fun filled member item among => ?_⟩
  exact becomes (filled.line, item)
    (List.mem_flatMap.2 ⟨filled, member, List.mem_map.2 ⟨item, among, rfl⟩⟩)

end FlexLayout
