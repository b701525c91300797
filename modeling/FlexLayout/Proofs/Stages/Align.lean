/-
# FlexLayout.Proofs.Stages.Align -- aligning corresponding items with their lines

A child and its counterpart, on lines of the same cross size at the same offset, are
stretched alike and come to stand at the same place across the main axis
(`alignKid_coupled`).  If their coordinates along it agreed before, nothing differs any more
(`Ended.same`).
-/
import FlexLayout.Line.Alignment
import FlexLayout.Proofs.Stages.Place

namespace FlexLayout

set_option autoImplicit false

open Pairing

variable {p : Pairing} {Γ : Coupling} {a : Prop} {container other : Container}

/-- Geometry after layout: it is the same, except for the coordinate along the main axis if
the boxes do not stand abreast. -/
def Ended (a : Prop) (axes : Axes) (_ : Box) (fragment other : Fragment) : Prop :=
  fragment.Agrees (axes.horizontal = true → a) (axes.horizontal = false → a) other

theorem Ended.same {axes : Axes} {box : Box} {fragment other : Fragment}
    (ended : Ended a axes box fragment other) (abreast : a) : Same box fragment other :=
  Fragment.Agrees.eq
    ⟨ended.frame.mono (fun _ _ => abreast) fun _ _ => abreast, ended.children⟩

namespace Container

theorem alignmentOf_alike (akin : container.Akin other)
    {R : Box → Fragment → Fragment → Prop} {kid kid' : Kid} (pair : kid.Pair Γ R kid') :
    other.alignmentOf kid'.box = container.alignmentOf kid.box := by
  obtain ⟨order, box⟩ := pair.box
  simp only [alignmentOf]
  rw [akin.alignItems, akin.wrap, box]
  rfl

theorem stretches_alike (akin : container.Akin other) {item item' : Item}
    (counterpart : Item.Counterpart p item item') {R : Box → Fragment → Fragment → Prop}
    {kid kid' : Kid} (pair : kid.Pair Γ R kid') {px py : Prop}
    (agrees : kid.frame.Agrees px py kid'.frame) :
    other.stretches item' kid' = container.stretches item kid := by
  have auto (side : Side) : kid'.frame.isAuto side = kid.frame.isAuto side :=
    agrees.same (Frame.isAuto · side) fun _ _ _ => rfl
  have alignment := alignmentOf_alike akin pair
  obtain ⟨order, box⟩ := pair.box
  obtain ⟨reversed, axes⟩ := akin.facing
  simp only [stretches]
  rw [axes, alignment, counterpart.outOfFlow, auto, auto, box]
  rfl

theorem stretch_coupled (resolve : Resolver) [resolve.OrderBlind] (axes : Axes) {item item' : Item}
    (counterpart : Item.Counterpart p item item') (lineCross : Int) {kid kid' : Kid}
    (pair : kid.Pair Γ (Moved a axes) kid') :
    Γ.Holds (fun kid kid' => kid.Pair Γ (Moved a axes) kid')
      (stretch resolve axes item lineCross kid) (stretch resolve axes item' lineCross kid') := by
  have agrees : kid.frame.Agrees (a ∧ axes.horizontal = true) (a ∧ axes.horizontal = false)
      kid'.frame := pair.related.frame
  have below : Γ.Below kid.box kid.fragment.children kid'.fragment.children := by
    rw [pair.related.children]
    exact Γ.below_refl kid.box _
  have size : stretchedSize axes item' kid'.frame lineCross =
      stretchedSize axes item kid.frame lineCross := by
    simp only [stretchedSize]
    rw [counterpart.minCross, counterpart.maxCross,
      agrees.same axes.crossSurround fun _ _ _ => rfl]
  have current : axes.crossSize? kid'.frame = axes.crossSize? kid.frame :=
    agrees.same axes.crossSize? fun _ _ _ => rfl
  simp only [stretch]
  rw [size, current]
  split
  · exact Γ.pure pair
  · let resize (frame : Frame) : Frame :=
      if axes.horizontal then
        { frame with height := some (stretchedSize axes item kid.frame lineCross) }
      else { frame with width := some (stretchedSize axes item kid.frame lineCross) }
    have resized : (resize kid.frame).Agrees (a ∧ axes.horizontal = true)
        (a ∧ axes.horizontal = false) (resize kid'.frame) := by
      dsimp only [resize]
      split
      · exact { agrees with height := rfl }
      · exact { agrees with width := rfl }
    show Γ.Holds _
      (kid.layOut (kid.withFrame (resize kid.frame)).fragment ((resize kid.frame).width.getD 0) >>= _)
      (kid'.layOut (kid'.withFrame (resize kid'.frame)).fragment
        ((resize kid'.frame).width.getD 0) >>= _)
    rw [resized.width]
    refine Γ.bind (pair.layOut resized below _) fun fragment other same => Γ.pure ?_
    rw [pair.spread]
    exact pair.withFragment (same.spread resolve kid.box)

def moveCross (container : Container) (line : Line) (startAuto endAuto : Bool) (kid : Kid) : Kid :=
  kid.withFrame (container.axes.moveCross kid.frame
    (container.frame.padding.get container.axes.crossStart + line.offset
      + crossOffset (container.style.wrap == .wrapReverse) startAuto endAuto
        (container.alignmentOf kid.box) (line.cross - container.axes.crossOuter kid.frame)
      + kid.frame.fixedMargin container.axes.crossStart
      + kid.frame.border.get container.axes.crossStart))

theorem alignKid_eq (resolve : Resolver) (container : Container) (line : Line) (item : Item)
    (kid : Kid) :
    alignKid resolve container line item kid =
      if container.stretches item kid then
        stretch resolve container.axes item line.cross kid >>= fun stretched =>
          pure (container.moveCross line (kid.frame.isAuto container.axes.crossStart)
            (kid.frame.isAuto container.axes.crossEnd) stretched)
      else
        pure (container.moveCross line (kid.frame.isAuto container.axes.crossStart)
          (kid.frame.isAuto container.axes.crossEnd) kid) := by
  simp only [alignKid]
  split <;> rfl

theorem moveCross_ended (akin : container.Akin other) {line line' : Line}
    (cross : line'.cross = line.cross) (offset : line'.offset = line.offset)
    (startAuto endAuto : Bool) {kid kid' : Kid} (pair : kid.Pair Γ (Moved a container.axes) kid') :
    (container.moveCross line startAuto endAuto kid).Pair Γ (Ended a container.axes)
      (other.moveCross line' startAuto endAuto kid') := by
  have agrees : kid.frame.Agrees (a ∧ container.axes.horizontal = true)
      (a ∧ container.axes.horizontal = false) kid'.frame := pair.related.frame
  obtain ⟨reversed, axes⟩ := akin.facing
  have start : (container.axes.facing reversed).crossStart = container.axes.crossStart := rfl
  have outer : (container.axes.facing reversed).crossOuter kid'.frame =
      container.axes.crossOuter kid.frame :=
    agrees.same container.axes.crossOuter fun _ _ _ => rfl
  have margin : kid'.frame.fixedMargin container.axes.crossStart =
      kid.frame.fixedMargin container.axes.crossStart :=
    agrees.same (Frame.fixedMargin · container.axes.crossStart) fun _ _ _ => rfl
  have moved (coordinate : Int) : (container.axes.moveCross kid.frame coordinate).Agrees
      (container.axes.horizontal = true → a) (container.axes.horizontal = false → a)
      (container.axes.moveCross kid'.frame coordinate) := by
    simp only [Axes.moveCross]
    cases row : container.axes.horizontal with
    | true => exact { agrees with x := fun abreast => agrees.x ⟨abreast rfl, row⟩, y := fun _ => rfl }
    | false => exact { agrees with x := fun _ => rfl, y := fun abreast => agrees.y ⟨abreast rfl, row⟩ }
  simp only [moveCross]
  rw [alignmentOf_alike akin pair, axes, akin.wrap, akin.padding, cross, offset, start, outer,
    margin, agrees.border]
  exact { pair with related := ⟨moved _, pair.related.children⟩ }

/-- **A child and its counterpart are aligned alike.** -/
theorem alignKid_coupled (resolve : Resolver) [resolve.OrderBlind] (akin : container.Akin other) {line line' : Line}
    (cross : line'.cross = line.cross) (offset : line'.offset = line.offset) {item item' : Item}
    (counterpart : Item.Counterpart p item item') {kid kid' : Kid}
    (pair : kid.Pair Γ (Moved a container.axes) kid') :
    Γ.Holds (fun kid kid' => kid.Pair Γ (Ended a container.axes) kid')
      (alignKid resolve container line item kid) (alignKid resolve other line' item' kid') := by
  have agrees : kid.frame.Agrees (a ∧ container.axes.horizontal = true)
      (a ∧ container.axes.horizontal = false) kid'.frame := pair.related.frame
  have auto (side : Side) : kid'.frame.isAuto side = kid.frame.isAuto side :=
    agrees.same (Frame.isAuto · side) fun _ _ _ => rfl
  obtain ⟨reversed, axes⟩ := akin.facing
  rw [alignKid_eq, alignKid_eq, stretches_alike akin counterpart pair agrees, axes,
    auto, auto, cross]
  split
  · apply Γ.bind (stretch_coupled resolve container.axes counterpart line.cross pair)
    intro stretched stretched' same
    exact Γ.pure (moveCross_ended akin cross offset _ _ same)
  · exact Γ.pure (moveCross_ended akin cross offset _ _ pair)

/-! ## All items -/

structure SeatAlike (p : Pairing) (entry other : Line × Item) : Prop where
  cross : other.1.cross = entry.1.cross
  offset : other.1.offset = entry.1.offset
  item : Item.Counterpart p entry.2 other.2

structure SpreadAlike (p : Pairing) (filled filled' : FilledLine) : Prop where
  cross : filled'.line.cross = filled.line.cross
  offset : filled'.line.offset = filled.line.offset
  items : Item.Counterparts p filled.items filled'.items

def seats (lines : List FilledLine) : List (Line × Item) :=
  lines.flatMap fun filled => filled.items.map fun item => (filled.line, item)

theorem map_snd_seats (lines : List FilledLine) :
    (seats lines).map Prod.snd = lines.flatMap FilledLine.items := by
  simp only [seats]
  rw [List.map_flatMap]
  congr 1
  funext filled
  rw [List.map_map]
  exact List.map_id filled.items

theorem seats_line {filled filled' : FilledLine} (alike : SpreadAlike p filled filled') :
    List.Forall₂ (SeatAlike p)
      ((filled.items.map fun item => (filled.line, item)).filter fun entry => p.keep entry.2.child)
      (filled'.items.map fun item => (filled'.line, item)) := by
  rw [List.filter_map, List.forall₂_map_left_iff, List.forall₂_map_right_iff]
  exact alike.items.imp fun item item' counterpart => ⟨alike.cross, alike.offset, counterpart⟩

theorem seats_alike {lines lines' : List FilledLine}
    (alike : Line.Lines (SpreadAlike p) lines lines') :
    List.Forall₂ (SeatAlike p) ((seats lines).filter fun entry => p.keep entry.2.child)
      (seats lines') := by
  simp only [seats]
  induction alike with
  | nil => exact .nil
  | cons related _ ih =>
      rw [List.flatMap_cons, List.flatMap_cons, List.filter_append]
      exact List.rel_append (seats_line related) ih
  | skip _ idle _ ih =>
      rw [List.flatMap_cons, List.filter_append]
      exact List.rel_append (seats_line idle) ih

theorem alignAll_cons (resolve : Resolver) {line : Line} {item : Item} {rest : List (Line × Item)}
    {kids : List Kid} {kid : Kid} (found : kids[item.child]? = some kid) :
    alignAll resolve container ((line, item) :: rest) kids = (do
      let kid ← alignKid resolve container line item kid
      alignAll resolve container rest (kids.set item.child kid)) := by
  rw [alignAll, found]

/-- **Corresponding items are aligned alike.** -/
theorem alignAll_coupled (resolve : Resolver) [resolve.OrderBlind] (akin : container.Akin other)
    {entries others : List (Line × Item)} {kids kids' : List Kid} {D : Nat → Kid → Kid → Prop}
    {τ : p.Tracking} (tracks : τ.Holds D kids kids')
    (seatsAlike : List.Forall₂ (SeatAlike p)
      (entries.filter fun entry => p.keep entry.2.child) others)
    (nodup : (entries.map fun entry => entry.2.child).Nodup)
    (seated : ∀ entry ∈ entries, entry.2.Seated kids)
    (moved : ∀ entry ∈ entries, ∀ kid kid', D entry.2.child kid kid' →
      kid.Pair Γ (Moved a container.axes) kid')
    (dropped : ∀ i, p.keep i = false → Γ.drops) :
    Γ.Holds (τ.Holds (putAll D (entries.map fun entry => entry.2.child)
        fun kid kid' => kid.Pair Γ (Ended a container.axes) kid'))
      (alignAll resolve container entries kids) (alignAll resolve other others kids') := by
  induction entries generalizing others kids kids' D with
  | nil =>
      cases seatsAlike
      exact Γ.pure tracks
  | cons entry rest ih =>
      obtain ⟨line, item⟩ := entry
      obtain ⟨fresh, nodup⟩ := List.nodup_cons.1 nodup
      obtain ⟨kid, found⟩ := (seated (line, item) List.mem_cons_self).exists_kid
      obtain ⟨-, seated⟩ := List.forall_mem_cons.1 seated
      obtain ⟨moved, moved'⟩ := List.forall_mem_cons.1 moved
      rw [alignAll_cons resolve found]
      cases keep : p.keep item.child with
      | true =>
          rw [List.filter_cons, if_pos keep] at seatsAlike
          cases seatsAlike with
          | @cons _ other' _ others first later =>
              obtain ⟨line', item'⟩ := other'
              obtain ⟨kid', found', related⟩ := τ.get tracks keep found
              rw [← first.item.child] at found'
              rw [alignAll_cons resolve found']
              have pair := moved kid kid' related
              refine Γ.bind (alignKid_coupled resolve akin first.cross first.offset first.item pair)
                fun new new' ended => ?_
              have tracks' := τ.set tracks keep found
                (R := fun kid kid' => kid.Pair Γ (Ended a container.axes) kid') ended
              rw [← first.item.child] at tracks'
              exact Γ.mono (ih tracks' later nodup
                (fun other member => (seated other member).set _ new) (put_of_fresh fresh moved'))
                fun c d tracks'' => τ.mono tracks'' fun _ _ _ _ holds => putAll_cons holds
      | false =>
          rw [List.filter_cons, if_neg (by simp [keep])] at seatsAlike
          -- The other container has no such child, so it does nothing meanwhile.
          apply Γ.pass (dropped item.child keep) (Run.ensures_true _)
          intro new _
          have tracks' := τ.set_of_drop tracks keep new
          refine Γ.mono (ih tracks' seatsAlike nodup
            (fun other member => (seated other member).set _ new) moved') ?_
          intro c d tracks''
          exact τ.mono tracks'' fun _ _ _ kept holds => putAll_cons_of_drop keep kept holds

end Container

end FlexLayout
