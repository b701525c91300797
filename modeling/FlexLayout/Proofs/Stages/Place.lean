/-
# FlexLayout.Proofs.Stages.Place -- placing corresponding lines along the main axis

A walk over a line does not move at items that take no space, so leaving them out
leaves the coordinates of the others as they are (`moves_alike`).  Corresponding
lines that are flexed alike are placed alike (`place_coupled`, `placeAll_coupled`);
a line of items that have no counterparts touches nothing that has one.

Lines may be flexed alike and yet be walked differently, where one has more room than the
other.  Then only the coordinates along the main axis differ.  Whether they do is a
parameter `a` of what follows: if `a` holds, counterparts come to stand abreast.
-/
import FlexLayout.Proofs.Flexing.Settling
import FlexLayout.Proofs.Stages.Size

namespace FlexLayout

set_option autoImplicit false

/-- Geometry that agrees, except for the coordinate across the main axis, and except for
the one along it if the boxes do not stand abreast. -/
def Moved (a : Prop) (axes : Axes) (_ : Box) (fragment other : Fragment) : Prop :=
  fragment.Agrees (a ∧ axes.horizontal = true) (a ∧ axes.horizontal = false) other

namespace MainTrack

def moves (track : MainTrack) (axes : Axes) (walk : MainWalk) :
    List (Item × Frame) → List (Item × Int)
  | [] => []
  | (item, frame) :: rest =>
      (item, (track.step axes walk item frame).1) ::
        track.moves axes (track.step axes walk item frame).2 rest

theorem zip_coordinates (track : MainTrack) (axes : Axes) (walk : MainWalk)
    (sized : List (Item × Frame)) :
    (sized.map Prod.fst).zip (track.coordinates axes walk sized) = track.moves axes walk sized := by
  induction sized generalizing walk with
  | nil => rfl
  | cons entry rest ih =>
      rw [List.map_cons, coordinates, List.zip_cons_cons, ih, moves]

theorem map_fst_moves (track : MainTrack) (axes : Axes) (walk : MainWalk)
    (sized : List (Item × Frame)) :
    (track.moves axes walk sized).map Prod.fst = sized.map Prod.fst := by
  induction sized generalizing walk with
  | nil => rfl
  | cons entry rest ih => rw [moves, List.map_cons, List.map_cons, ih]

theorem map_snd_moves (track : MainTrack) (axes : Axes) (walk : MainWalk)
    (sized : List (Item × Frame)) :
    (track.moves axes walk sized).map Prod.snd = track.coordinates axes walk sized := by
  induction sized generalizing walk with
  | nil => rfl
  | cons entry rest ih => rw [moves, List.map_cons, ih, coordinates]

theorem moves_facing (track : MainTrack) (axes : Axes) (reversed : Bool) (walk : MainWalk)
    (sized : List (Item × Frame)) :
    track.moves (axes.facing reversed) walk sized = track.moves axes walk sized := by
  induction sized generalizing walk with
  | nil => rfl
  | cons entry rest ih =>
      rw [moves, moves, ih]
      rfl

variable {p : Pairing} {a : Prop}

def MovedAlike (p : Pairing) (a : Prop) (move other : Item × Int) : Prop :=
  other.1.child = p.child move.1.child ∧ (a → other.2 = move.2)

theorem step_alike (track : MainTrack) (axes : Axes) (walk : MainWalk) {entry other : Item × Frame}
    (alike : Item.SizedAlike p entry other) :
    track.step axes walk other.1 other.2 = track.step axes walk entry.1 entry.2 := by
  obtain ⟨counterpart, agrees⟩ := alike
  rw [agrees.moved]
  simp only [step]
  rw [counterpart.outOfFlow]
  rfl

theorem step_of_outOfFlow (track : MainTrack) (axes : Axes) (walk : MainWalk) {item : Item}
    (out : item.outOfFlow = true) (frame : Frame) :
    (track.step axes walk item frame).2 = walk := by
  simp only [step]
  rw [if_pos out]

/-- **Items that take no space do not influence the walk.** -/
theorem moves_alike {track track' : MainTrack} (tracks : a → track' = track) (axes : Axes)
    {walk walk' : MainWalk} (walks : a → walk' = walk) {sized others : List (Item × Frame)}
    (alike : List.Forall₂ (Item.SizedAlike p) (sized.filter fun entry => p.keep entry.1.child) others)
    (weightless : ∀ entry ∈ sized, p.keep entry.1.child = false → entry.1.outOfFlow = true) :
    List.Forall₂ (MovedAlike p a)
      ((track.moves axes walk sized).filter fun move => p.keep move.1.child)
      (track'.moves axes walk' others) := by
  induction sized generalizing walk walk' others with
  | nil =>
      cases alike
      exact .nil
  | cons entry rest ih =>
      have rests := fun other member => weightless other (List.mem_cons_of_mem entry member)
      rw [moves]
      cases keep : p.keep entry.1.child with
      | true =>
          rw [List.filter_cons, if_pos keep] at alike ⊢
          cases alike with
          | @cons _ other _ others first later =>
              have step (abreast : a) : track'.step axes walk' other.1 other.2 =
                  track.step axes walk entry.1 entry.2 := by
                rw [tracks abreast, walks abreast, step_alike track axes walk first]
              rw [moves]
              exact .cons ⟨first.1.child, fun abreast => by rw [step abreast]⟩
                (ih (fun abreast => by rw [step abreast]) later rests)
      | false =>
          have out := weightless entry List.mem_cons_self keep
          rw [List.filter_cons, if_neg (by simp [keep])] at alike ⊢
          rw [step_of_outOfFlow track axes walk out]
          exact ih walks alike rests

end MainTrack

open Pairing

variable {p : Pairing} {Γ : Coupling} {a : Prop}

theorem modify_of_getElem? {α : Type} {list : List α} {i : Nat} {a : α} (f : α → α)
    (found : list[i]? = some a) : list.modify i f = list.set i (f a) := by
  rw [List.modify_eq_set_getElem?, found]
  rfl

theorem moveMain_cons (axes : Axes) (move : Item × Int) (moves : List (Item × Int))
    (kids : List Kid) :
    moveMain axes kids (move :: moves) =
      moveMain axes
        (kids.modify move.1.child fun kid => kid.withFrame (axes.moveMain kid.frame move.2)) moves :=
  rfl

theorem Kid.Pair.moveMain {kid kid' : Kid} (axes : Axes) {coordinate coordinate' : Int}
    (abreast : a → coordinate' = coordinate) (pair : kid.Pair Γ Sized kid') :
    (kid.withFrame (axes.moveMain kid.frame coordinate)).Pair Γ (Moved a axes)
      (kid'.withFrame (axes.moveMain kid'.frame coordinate')) := by
  have agrees : kid.fragment.Agrees False False kid'.fragment := pair.related
  refine { pair with related := ⟨?_, agrees.children⟩ }
  show (axes.moveMain kid.fragment.frame coordinate).Agrees _ _
    (axes.moveMain kid'.fragment.frame coordinate')
  simp only [Axes.moveMain]
  cases axes.horizontal with
  | true =>
      exact { agrees.frame with x := fun row => abreast row.1, y := fun column => by simp at column }
  | false =>
      exact { agrees.frame with x := fun row => by simp at row, y := fun column => abreast column.1 }

theorem moveMain_tracks (axes : Axes) (moves : List (Item × Int)) {others : List (Item × Int)}
    {kids kids' : List Kid}
    {D : Nat → Kid → Kid → Prop} {τ : p.Tracking} (tracks : τ.Holds D kids kids')
    (alike : List.Forall₂ (MainTrack.MovedAlike p a)
      (moves.filter fun move => p.keep move.1.child) others)
    (nodup : (moves.map fun move => move.1.child).Nodup)
    (seated : ∀ move ∈ moves, move.1.Seated kids)
    (sized : ∀ move ∈ moves, ∀ kid kid', D move.1.child kid kid' → kid.Pair Γ Sized kid') :
    τ.Holds (putAll D (moves.map fun move => move.1.child) fun kid kid' =>
      kid.Pair Γ (Moved a axes) kid') (moveMain axes kids moves) (moveMain axes kids' others) := by
  induction moves generalizing others kids kids' D with
  | nil =>
      cases alike
      exact tracks
  | cons move rest ih =>
      obtain ⟨fresh, nodup⟩ := List.nodup_cons.1 nodup
      obtain ⟨kid, found⟩ := (seated move List.mem_cons_self).exists_kid
      obtain ⟨-, seated⟩ := List.forall_mem_cons.1 seated
      obtain ⟨sized, sized'⟩ := List.forall_mem_cons.1 sized
      rw [moveMain_cons, modify_of_getElem? _ found]
      cases keep : p.keep move.1.child with
      | true =>
          rw [List.filter_cons, if_pos keep] at alike
          cases alike with
          | @cons _ other _ others first later =>
              obtain ⟨kid', found', related⟩ := τ.get tracks keep found
              have moved := τ.set tracks keep found ((sized kid kid' related).moveMain axes first.2)
              rw [moveMain_cons, first.1, modify_of_getElem? _ found']
              exact τ.mono (ih moved later nodup (fun other member => (seated other member).set _ _)
                (put_of_fresh fresh sized')) fun _ _ _ _ holds => putAll_cons holds
      | false =>
          rw [List.filter_cons, if_neg (by simp [keep])] at alike
          refine τ.mono (ih (τ.set_of_drop tracks keep _) alike nodup
            (fun other member => (seated other member).set _ _) sized') ?_
          intro _ _ _ kept holds
          exact putAll_cons_of_drop keep kept holds

theorem moves_tracks {track track' : MainTrack} (same : a → track' = track) (axes : Axes)
    {walk walk' : MainWalk} (walks : a → walk' = walk)
    {sized others : List (Item × Frame)} {kids kids' : List Kid} {D : Nat → Kid → Kid → Prop}
    {τ : p.Tracking} (tracks : τ.Holds D kids kids')
    (alike : List.Forall₂ (Item.SizedAlike p) (sized.filter fun entry => p.keep entry.1.child) others)
    (weightless : ∀ entry ∈ sized, p.keep entry.1.child = false → entry.1.outOfFlow = true)
    (nodup : ((sized.map Prod.fst).map Item.child).Nodup)
    (seated : ∀ item ∈ sized.map Prod.fst, item.Seated kids)
    (related : ∀ item ∈ sized.map Prod.fst, ∀ kid kid', D item.child kid kid' →
      kid.Pair Γ Sized kid') :
    τ.Holds (putAll D ((sized.map Prod.fst).map Item.child) fun kid kid' =>
        kid.Pair Γ (Moved a axes) kid')
      (moveMain axes kids (track.moves axes walk sized))
      (moveMain axes kids' (track'.moves axes walk' others)) := by
  have children : ((track.moves axes walk sized).map fun move => move.1.child) =
      (sized.map Prod.fst).map Item.child := by
    rw [← MainTrack.map_fst_moves track axes walk, List.map_map]
    rfl
  have listed {move : Item × Int} (among : move ∈ track.moves axes walk sized) :
      move.1 ∈ sized.map Prod.fst := by
    rw [← MainTrack.map_fst_moves track axes walk]
    exact List.mem_map_of_mem among
  have moved := moveMain_tracks (Γ := Γ) axes (track.moves axes walk sized) tracks
    (MainTrack.moves_alike same axes walks alike weightless) (children ▸ nodup)
    (fun move among => seated move.1 (listed among))
    fun move among => related move.1 (listed among)
  rwa [children] at moved

theorem length_moveMain (axes : Axes) (kids : List Kid) (moves : List (Item × Int)) :
    (moveMain axes kids moves).length = kids.length := by
  induction moves generalizing kids with
  | nil => rfl
  | cons move rest ih => rw [moveMain_cons, ih, List.length_modify]

namespace Line

/-! ## One line -/

/-- From either end, the same margins are `auto`. -/
theorem countAutoMargins_facing (axes : Axes) (reversed : Bool) (items : List Item)
    (kids : List Kid) :
    countAutoMargins (axes.facing reversed) items kids = countAutoMargins axes items kids := by
  have autos (frame : Frame) :
      (axes.facing reversed).autoMainMargins frame = axes.autoMainMargins frame := by
    obtain ⟨horizontal, other⟩ := axes
    cases reversed <;> cases other <;> first | rfl | exact Nat.add_comm _ _
  simp only [countAutoMargins, autos]

theorem countAutoMargins_alike (axes : Axes) {items others : List Item} {kids kids' : List Kid}
    {D : Nat → Kid → Kid → Prop} {τ : p.Tracking} (tracks : τ.Holds D kids kids')
    (counterparts : Item.Counterparts p items others) (weightless : p.Weightless items)
    (seated : ∀ item ∈ items, item.Seated kids)
    (measured : ∀ item ∈ items, ∀ kid kid', D item.child kid kid' →
      kid.frame.Agrees False False kid'.frame) :
    countAutoMargins axes others kids' = countAutoMargins axes items kids := by
  simp only [countAutoMargins]
  induction items generalizing others with
  | nil =>
      cases counterparts
      rfl
  | cons item rest ih =>
      obtain ⟨kid, found⟩ := (seated item List.mem_cons_self).exists_kid
      have rests := fun {others : List Item} (counterparts : Item.Counterparts p rest others) =>
        ih counterparts
        (fun other member => weightless other (List.mem_cons_of_mem item member))
        (fun other member => seated other (List.mem_cons_of_mem item member))
        (fun other member => measured other (List.mem_cons_of_mem item member))
      simp only [Item.Counterparts] at counterparts
      rw [List.map_cons, List.sum_cons, found]
      cases keep : p.keep item.child with
      | true =>
          rw [List.filter_cons, if_pos keep] at counterparts
          cases counterparts with
          | @cons _ other _ others first later =>
              obtain ⟨kid', found', related⟩ := τ.get tracks keep found
              have agrees := measured item List.mem_cons_self kid kid' related
              have autos : axes.autoMainMargins kid'.frame = axes.autoMainMargins kid.frame :=
                agrees.same axes.autoMainMargins fun _ _ _ => rfl
              rw [List.map_cons, List.sum_cons, first.child, found', rests later]
              dsimp only
              rw [first.outOfFlow, autos]
      | false =>
          rw [List.filter_cons, if_neg (by simp [keep])] at counterparts
          rw [rests counterparts]
          dsimp only
          rw [if_pos (weightless item List.mem_cons_self keep), Nat.zero_add]

theorem cross_raiseCross_alike (axes : Axes) {line line' : Line} (cross : line'.cross = line.cross)
    {sized others : List (Item × Frame)}
    (alike : List.Forall₂ (Item.SizedAlike p) (sized.filter fun entry => p.keep entry.1.child) others)
    (weightless : ∀ entry ∈ sized, p.keep entry.1.child = false → entry.1.outOfFlow = true) :
    (line'.raiseCross axes others).cross = (line.raiseCross axes sized).cross := by
  simp only [raiseCross]
  rw [cross]
  generalize line.cross = start
  induction sized generalizing start others with
  | nil =>
      cases alike
      rfl
  | cons entry rest ih =>
      have rests := fun other member => weightless other (List.mem_cons_of_mem entry member)
      cases keep : p.keep entry.1.child with
      | true =>
          rw [List.filter_cons, if_pos keep] at alike
          cases alike with
          | @cons _ other _ others first later =>
              have outer : axes.crossOuter other.2 = axes.crossOuter entry.2 :=
                first.2.same axes.crossOuter fun _ _ _ => rfl
              rw [List.filter_cons, List.filter_cons, first.1.outOfFlow]
              split
              · rw [List.foldl_cons, List.foldl_cons, outer]
                exact ih later rests _
              · exact ih later rests start
      | false =>
          have out := weightless entry List.mem_cons_self keep
          rw [List.filter_cons, if_neg (by simp [keep])] at alike
          rw [List.filter_cons (x := entry), if_neg (by simp [out])]
          exact ih alike rests start

/-- What flexing two lines gives: corresponding items, and the same track if they come to
stand abreast. -/
structure FlexedAlike (p : Pairing) (a : Prop) (container other : Container)
    (flexed flexed' : Line × List Item) : Prop where
  track : a → MainTrack.ofLine other flexed'.1 = MainTrack.ofLine container flexed.1
  items : Item.Counterparts p flexed.2 flexed'.2

/-- Two lines that are flexed alike, whatever their numbers. -/
structure PlacedAlike (p : Pairing) (a : Prop) (container other : Container)
    (filled filled' : FilledLine) : Prop where
  main : filled'.line.main = filled.line.main
  cross : filled'.line.cross = filled.line.cross
  items : Item.Counterparts p filled.items filled'.items
  flexed : ∀ autos index index' : Nat,
    FlexedAlike p a container other
      (Line.flex { filled.line with autoMargins := autos }
        (filled.items.map fun item => { item with line := index })
        container.mainSpace container.mainGap)
      (Line.flex { filled'.line with autoMargins := autos }
        (filled'.items.map fun item => { item with line := index' })
        other.mainSpace other.mainGap)

structure AlignedAlike (p : Pairing) (filled filled' : FilledLine) : Prop where
  main : filled'.line.main = filled.line.main
  cross : filled'.line.cross = filled.line.cross
  autoMargins : filled'.line.autoMargins = filled.line.autoMargins
  items : Item.Counterparts p filled.items filled'.items

theorem countAutoMargins_numbered (axes : Axes) (index : Nat) (items : List Item)
    (kids : List Kid) :
    countAutoMargins axes (items.map fun item => { item with line := index }) kids =
      countAutoMargins axes items kids := by
  simp only [countAutoMargins]
  rw [List.map_map]
  rfl

theorem weightless_renumbered {items : List Item} (weightless : p.Weightless items) (index : Nat) :
    p.Weightless (items.map fun item => { item with line := index }) := by
  intro item member drop
  obtain ⟨source, among, rfl⟩ := List.mem_map.1 member
  exact weightless source among drop

theorem weightless_of_flex (line : Line) {items : List Item} (available : Option Int) (gap : Int)
    (weightless : p.Weightless items) : p.Weightless (line.flex items available gap).2 := by
  intro after member drop
  obtain ⟨item, among, same⟩ := exists_of_mem_right (map_unflexed_flex line items available gap) member
  have child : after.child = item.child := (congrArg Item.child same :)
  have flow : after.outOfFlow = item.outOfFlow := (congrArg Item.outOfFlow same :)
  exact flow.trans (weightless item among (child ▸ drop))

theorem seated_of_children {items others : List Item} {kids : List Kid}
    (children : others.map Item.child = items.map Item.child)
    (seated : ∀ item ∈ items, item.Seated kids) : ∀ other ∈ others, other.Seated kids := by
  intro other member
  have among : other.child ∈ items.map Item.child := by
    rw [← children]
    exact List.mem_map_of_mem member
  obtain ⟨item, there, same⟩ := List.mem_map.1 among
  have inside := seated item there
  rwa [Item.Seated, same] at inside

/-- **Corresponding lines are placed alike.** -/
theorem place_coupled {container other : Container}
    (horizontal : other.axes.horizontal = container.axes.horizontal)
    {filled filled' : FilledLine} (alike : PlacedAlike p a container other filled filled')
    (index index' : Nat) {kids kids' : List Kid} {D : Nat → Kid → Kid → Prop}
    {τ : p.Tracking} (tracks : τ.Holds D kids kids') (weightless : p.Weightless filled.items)
    (nodup : (filled.items.map Item.child).Nodup) (seated : ∀ item ∈ filled.items, item.Seated kids)
    (measured : ∀ item ∈ filled.items, ∀ kid kid', D item.child kid kid' →
      kid.Pair Γ (Measured Γ container.axes) kid')
    (dropped : ∀ i, p.keep i = false → Γ.drops) :
    Γ.Holds (fun made made' => AlignedAlike p made.1 made'.1 ∧
        τ.Holds (putAll D (filled.items.map Item.child) fun kid kid' =>
          kid.Pair Γ (Moved a container.axes) kid') made.2 made'.2)
      (place container
        ⟨filled.line, filled.items.map fun item => { item with line := index }⟩ kids)
      (place other
        ⟨filled'.line, filled'.items.map fun item => { item with line := index' }⟩ kids') := by
  have autos := countAutoMargins_alike container.axes tracks alike.items weightless seated
    fun item member kid kid' holds => (measured item member kid kid' holds).related.1
  simp only [place]
  rw [Axes.eq_facing horizontal, countAutoMargins_numbered, countAutoMargins_numbered,
    countAutoMargins_facing, autos]
  simp only [Item.giveMainSizes_facing, MainTrack.zip_coordinates, MainTrack.moves_facing]
  generalize countAutoMargins container.axes filled.items kids = count
  have children : (Line.flex { filled.line with autoMargins := count }
      (filled.items.map fun item => { item with line := index })
      container.mainSpace container.mainGap).2.map Item.child = filled.items.map Item.child := by
    rw [map_child_flex, List.map_map]
    rfl
  have weightless' := weightless_of_flex { filled.line with autoMargins := count }
    container.mainSpace container.mainGap (weightless_renumbered weightless index)
  -- The `auto` margins are counted before, so both lines are flexed with the same number.
  obtain ⟨track, items⟩ := alike.flexed count index index'
  obtain ⟨used, frozen, counts⟩ := counts_flex { filled.line with autoMargins := count }
    (filled.items.map fun item => { item with line := index }) container.mainSpace container.mainGap
  obtain ⟨used', frozen', counts'⟩ := counts_flex { filled'.line with autoMargins := count }
    (filled'.items.map fun item => { item with line := index' }) other.mainSpace other.mainGap
  generalize Line.flex { filled.line with autoMargins := count } _ _ _ = flexed at *
  generalize Line.flex { filled'.line with autoMargins := count } _ _ _ = flexed' at *
  have member {item : Item} (among : item ∈ flexed.2) :
      ∃ source ∈ filled.items, source.child = item.child := by
    rw [← List.mem_map, ← children]
    exact List.mem_map_of_mem among
  have seated' := seated_of_children children seated
  have measured' : ∀ item ∈ flexed.2, ∀ kid kid', D item.child kid kid' →
      kid.Pair Γ (Measured Γ container.axes) kid' := by
    intro item among
    obtain ⟨source, there, same⟩ := member among
    rw [← same]
    exact measured source there
  have nodup' : (flexed.2.map Item.child).Nodup := children.symm ▸ nodup
  -- First the children get their main sizes, then the walk moves those that stand abreast.
  refine Γ.bind (Γ.ensure (Item.giveMainSizes_coupled Γ tracks items nodup' seated' measured' dropped)
    (Item.giveMainSizes_ensures container.axes seated') (Run.ensures_true _)) ?_
  rintro ⟨sized, sizedKids⟩ ⟨sized', sizedKids'⟩ ⟨⟨entries, tracks'⟩, ⟨listed, length⟩, -⟩
  dsimp only at entries tracks' listed length ⊢
  have weightless'' : ∀ entry ∈ sized, p.keep entry.1.child = false → entry.1.outOfFlow = true := by
    intro entry among
    apply weightless' entry.1
    rw [← listed]
    exact List.mem_map_of_mem among
  refine Γ.pure ⟨⟨?_, ?_, ?_, items⟩, ?_⟩
  · show flexed'.1.main = flexed.1.main
    rw [counts, counts']
    exact alike.main
  · refine cross_raiseCross_alike container.axes ?_ entries weightless''
    rw [counts, counts']
    exact alike.cross
  · show flexed'.1.autoMargins = flexed.1.autoMargins
    rw [counts, counts']
  · have moved := moves_tracks (Γ := Γ) track container.axes
      (fun abreast => congrArg MainTrack.begin (track abreast)) tracks' entries weightless''
      (listed.symm ▸ nodup') ?_ ?_
    · rw [listed, children] at moved
      exact τ.mono moved fun _ _ _ _ holds => putAll_putAll (fun _ inside => inside) holds
    · intro item among
      exact (seated' item (listed ▸ among)).of_length length
    · intro item among kid kid' holds
      simp only [putAll] at holds
      rwa [if_pos (List.mem_map_of_mem (listed ▸ among))] at holds

/-! ## All lines -/

/-- Lines that correspond, in order.  A line without a counterpart has items, but is
like one that has none. -/
inductive Lines (R : FilledLine → FilledLine → Prop) : List FilledLine → List FilledLine → Prop where
  | nil : Lines R [] []
  | cons {filled filled' : FilledLine} {lines lines' : List FilledLine} (related : R filled filled')
      (rest : Lines R lines lines') : Lines R (filled :: lines) (filled' :: lines')
  | skip {filled : FilledLine} {lines lines' : List FilledLine} (some : filled.items ≠ [])
      (idle : R filled ⟨filled.line, []⟩) (rest : Lines R lines lines') :
      Lines R (filled :: lines) lines'

theorem Lines.mono {R S : FilledLine → FilledLine → Prop} {lines lines' : List FilledLine}
    (alike : Lines R lines lines')
    (weaker : ∀ filled ∈ lines, ∀ filled', R filled filled' → S filled filled') :
    Lines S lines lines' := by
  induction alike with
  | nil => exact .nil
  | cons related _ ih =>
      obtain ⟨first, later⟩ := List.forall_mem_cons.1 weaker
      exact .cons (first _ related) (ih later)
  | skip some idle _ ih =>
      obtain ⟨first, later⟩ := List.forall_mem_cons.1 weaker
      exact .skip some (first _ idle) (ih later)

theorem flex_nil (line : Line) (available : Option Int) (gap : Int) :
    (line.flex [] available gap).2 = [] :=
  List.forall₂_nil_left_iff.1 (map_unflexed_flex line [] available gap)

theorem place_nil (container : Container) (line : Line) (kids : List Kid) :
    ∃ line', place container ⟨line, []⟩ kids = pure (⟨line', []⟩, kids) := by
  refine ⟨({ line with autoMargins := 0 }.flex [] container.mainSpace container.mainGap).1.raiseCross
    container.axes [], ?_⟩
  simp only [place]
  rw [show countAutoMargins container.axes [] kids = 0 from rfl, flex_nil]
  rfl

/-- What placing keeps of a line. -/
structure PlacedFrom (filled placed : FilledLine) : Prop where
  items : List.Forall₂
    (fun item after => after.child = item.child ∧ after.outOfFlow = item.outOfFlow)
    filled.items placed.items
  inFlow : placed.line.inFlow = filled.line.inFlow
  main : placed.line.main = filled.line.main
  cross : (∀ item ∈ filled.items, item.outOfFlow = true) → placed.line.cross = filled.line.cross
  raised : filled.line.cross ≤ placed.line.cross

theorem PlacedFrom.map_child {filled placed : FilledLine} (kept : PlacedFrom filled placed) :
    placed.items.map Item.child = filled.items.map Item.child := by
  refine (List.forall₂_eq_eq_eq ▸ List.forall₂_map_left_iff.2 (List.forall₂_map_right_iff.2 ?_) :
    filled.items.map Item.child = placed.items.map Item.child).symm
  exact kept.items.imp fun item after same => same.1.symm

theorem cross_raiseCross_of_outOfFlow (axes : Axes) (line : Line) {sized : List (Item × Frame)}
    (out : ∀ entry ∈ sized, entry.1.outOfFlow = true) :
    (line.raiseCross axes sized).cross = line.cross := by
  have none : sized.filter (fun entry => !entry.1.outOfFlow) = [] := by
    apply List.filter_eq_nil_iff.2
    intro entry member
    rw [out entry member]
    exact Bool.false_ne_true
  simp only [raiseCross]
  rw [none]
  rfl

theorem le_cross_raiseCross (axes : Axes) (line : Line) (sized : List (Item × Frame)) :
    line.cross ≤ (line.raiseCross axes sized).cross :=
  (le_foldl_max (fun entry : Item × Frame => axes.crossOuter entry.2) _ line.cross).1

/-- Placing a line keeps its items, and all children. -/
theorem place_ensures {container : Container} {filled : FilledLine} {kids : List Kid}
    (seated : ∀ item ∈ filled.items, item.Seated kids) :
    Run.Ensures (fun a => PlacedFrom filled a.1 ∧ a.2.length = kids.length)
      (place container filled kids) := by
  simp only [place]
  have children := map_child_flex
    { filled.line with autoMargins := countAutoMargins container.axes filled.items kids }
    filled.items container.mainSpace container.mainGap
  have flexed := map_unflexed_flex
    { filled.line with autoMargins := countAutoMargins container.axes filled.items kids }
    filled.items container.mainSpace container.mainGap
  obtain ⟨used, frozen, counts⟩ := counts_flex
    { filled.line with autoMargins := countAutoMargins container.axes filled.items kids }
    filled.items container.mainSpace container.mainGap
  refine Run.ensures_bind
    (Item.giveMainSizes_ensures container.axes (seated_of_children children seated)) ?_
  rintro a ⟨listed, length⟩
  refine Run.ensures_pure ⟨⟨?_, ?_, ?_, fun out => ?_, ?_⟩, ?_⟩
  · exact flexed.imp fun item after same =>
      ⟨(congrArg Item.child same :), (congrArg Item.outOfFlow same :)⟩
  · dsimp only [raiseCross]
    rw [counts]
  · dsimp only [raiseCross]
    rw [counts]
  · dsimp only
    rw [cross_raiseCross_of_outOfFlow, counts]
    intro entry member
    have among : entry.1 ∈ a.1.map Prod.fst := List.mem_map_of_mem member
    rw [listed] at among
    obtain ⟨item, there, same⟩ := exists_of_mem_right flexed among
    exact (congrArg Item.outOfFlow same :).trans (out item there)
  · refine Int.le_trans (Int.le_of_eq ?_) (le_cross_raiseCross _ _ _)
    rw [counts]
  · rw [length_moveMain, length]

theorem place_ensures_numbered {container : Container} {filled : FilledLine} {kids : List Kid}
    (seated : ∀ item ∈ filled.items, item.Seated kids) (index : Nat) :
    Run.Ensures (fun a => PlacedFrom filled a.1 ∧ a.2.length = kids.length)
      (place container
        ⟨filled.line, filled.items.map fun item => { item with line := index }⟩ kids) := by
  have children : (filled.items.map fun item => { item with line := index }).map Item.child =
      filled.items.map Item.child := by
    rw [List.map_map]
    rfl
  refine Run.Ensures.mono (place_ensures (seated_of_children children seated)) ?_
  rintro a ⟨kept, length⟩
  refine ⟨⟨List.forall₂_map_left_iff.1 kept.items, kept.inFlow, kept.main, fun out => ?_,
    kept.raised⟩, length⟩
  apply kept.cross
  intro item member
  obtain ⟨source, among, rfl⟩ := List.mem_map.1 member
  exact out source among

/-- Children of other lines are not touched. -/
theorem putAll_of_apart {D : Nat → Kid → Kid → Prop} {R : Kid → Kid → Prop} {items others : List Item}
    (apart : ∀ a ∈ items.map Item.child, ∀ b ∈ others.map Item.child, a ≠ b) {item : Item}
    (member : item ∈ others) {kid kid' : Kid}
    (holds : putAll D (items.map Item.child) R item.child kid kid') : D item.child kid kid' := by
  simp only [putAll] at holds
  rwa [if_neg fun inside => apart _ inside _ (List.mem_map_of_mem member) rfl] at holds

/-- What holds of lines before they are placed: those without counterparts take no
space, and the items have different children, which are measured alike. -/
structure Unplaced (Γ : Coupling) (p : Pairing) (axes : Axes) (D : Nat → Kid → Kid → Prop)
    (kids : List Kid) (lines : List FilledLine) : Prop where
  weightless : ∀ filled ∈ lines, p.Weightless filled.items
  nodup : ((lines.flatMap FilledLine.items).map Item.child).Nodup
  seated : ∀ item ∈ lines.flatMap FilledLine.items, item.Seated kids
  measured : ∀ item ∈ lines.flatMap FilledLine.items, ∀ kid kid', D item.child kid kid' →
    kid.Pair Γ (Measured Γ axes) kid'

namespace Unplaced

variable {axes : Axes} {D : Nat → Kid → Kid → Prop} {kids kids' : List Kid} {filled : FilledLine}
  {lines : List FilledLine}

theorem first (unplaced : Unplaced Γ p axes D kids (filled :: lines)) :
    p.Weightless filled.items ∧ (filled.items.map Item.child).Nodup ∧
      (∀ item ∈ filled.items, item.Seated kids) ∧
      ∀ item ∈ filled.items, ∀ kid kid', D item.child kid kid' →
        kid.Pair Γ (Measured Γ axes) kid' := by
  obtain ⟨weightless, nodup, seated, measured⟩ := unplaced
  rw [List.flatMap_cons] at nodup seated measured
  rw [List.map_append] at nodup
  exact ⟨weightless filled List.mem_cons_self, (List.nodup_append.1 nodup).1,
    (List.forall_mem_append.1 seated).1, (List.forall_mem_append.1 measured).1⟩

/-- Placing the first line does not touch the others. -/
theorem rest {R : Kid → Kid → Prop} (unplaced : Unplaced Γ p axes D kids (filled :: lines))
    (length : kids'.length = kids.length) :
    Unplaced Γ p axes (putAll D (filled.items.map Item.child) R) kids' lines := by
  obtain ⟨weightless, nodup, seated, measured⟩ := unplaced
  rw [List.flatMap_cons] at nodup seated measured
  rw [List.map_append] at nodup
  obtain ⟨-, nodup, apart⟩ := List.nodup_append.1 nodup
  refine ⟨(List.forall_mem_cons.1 weightless).2, nodup, ?_, ?_⟩
  · intro item member
    exact ((List.forall_mem_append.1 seated).2 item member).of_length length
  · intro item member kid kid' holds
    exact (List.forall_mem_append.1 measured).2 item member kid kid'
      (putAll_of_apart apart member holds)

end Unplaced

/-- **Corresponding lines are placed alike, one after the other.** -/
theorem placeAll_coupled {container other : Container}
    (horizontal : other.axes.horizontal = container.axes.horizontal)
    {lines lines' : List FilledLine} (alike : Lines (PlacedAlike p a container other) lines lines')
    (index index' : Nat) {kids kids' : List Kid} {D : Nat → Kid → Kid → Prop}
    {τ : p.Tracking} (tracks : τ.Holds D kids kids') (unplaced : Unplaced Γ p container.axes D kids lines)
    (dropped : ∀ i, p.keep i = false → Γ.drops) :
    Γ.Holds (fun made made' => Lines (AlignedAlike p) made.1 made'.1 ∧
        τ.Holds (putAll D ((lines.flatMap FilledLine.items).map Item.child) fun kid kid' =>
          kid.Pair Γ (Moved a container.axes) kid') made.2 made'.2)
      (placeAll container index lines kids) (placeAll other index' lines' kids') := by
  induction alike generalizing index index' kids kids' D with
  | nil => exact Γ.pure ⟨.nil, tracks⟩
  | @cons filled filled' lines lines' related rest ih =>
      obtain ⟨weightless, nodup, seated, measured⟩ := unplaced.first
      have placed := place_coupled horizontal related index index' tracks weightless nodup seated measured
        dropped
      rw [placeAll, placeAll]
      apply Γ.bind (Γ.ensure placed (place_ensures_numbered seated index) (Run.ensures_true _))
      rintro a b ⟨⟨aligned, tracks'⟩, ⟨-, length⟩, -⟩
      apply Γ.bind (ih (index + 1) (index' + 1) tracks' (unplaced.rest length))
      rintro c d ⟨aligneds, tracks''⟩
      refine Γ.pure ⟨.cons aligned aligneds, ?_⟩
      rw [List.flatMap_cons, List.map_append]
      exact τ.mono tracks'' fun _ _ _ _ holds => putAll_append holds
  | @skip filled lines lines' some idle rest ih =>
      obtain ⟨weightless, nodup, seated, measured⟩ := unplaced.first
      have placed := place_coupled horizontal idle index index' tracks weightless nodup seated measured
        dropped
      -- The second container does nothing meanwhile, which is to place an empty line.
      obtain ⟨line', empty⟩ := place_nil other filled.line kids'
      rw [List.map_nil, empty] at placed
      let blank : FilledLine × List Kid := (⟨line', []⟩, kids')
      rw [placeAll, ← pure_bind blank fun b => placeAll other index' lines' b.2]
      refine Γ.bind (Γ.ensure placed (place_ensures_numbered seated index) (Run.ensures_pure
        (P := fun b => b = blank) rfl)) ?_
      rintro a b ⟨⟨aligned, tracks'⟩, ⟨kept, length⟩, same⟩
      have some' : a.1.items ≠ [] := fun none =>
        some (List.map_eq_nil_iff.1 (none ▸ kept.map_child).symm)
      rw [← bind_pure (placeAll other index' lines' b.2)]
      apply Γ.bind (ih (index + 1) index' tracks' (unplaced.rest length))
      rintro c d ⟨aligneds, tracks''⟩
      refine Γ.pure ⟨.skip some' ⟨rfl, rfl, rfl, ?_⟩ aligneds, ?_⟩
      · have items := aligned.items
        rwa [same] at items
      · rw [List.flatMap_cons, List.map_append]
        exact τ.mono tracks'' fun _ _ _ _ holds => putAll_append holds

/-- Placing all lines keeps their items, and all children. -/
theorem placeAll_ensures (container : Container) (index : Nat) {lines : List FilledLine}
    {kids : List Kid} (seated : ∀ item ∈ lines.flatMap FilledLine.items, item.Seated kids) :
    Run.Ensures (fun a => List.Forall₂ PlacedFrom lines a.1 ∧ a.2.length = kids.length)
      (placeAll container index lines kids) := by
  induction lines generalizing index kids with
  | nil => exact Run.ensures_pure ⟨.nil, rfl⟩
  | cons filled rest ih =>
      rw [List.flatMap_cons] at seated
      obtain ⟨here, there⟩ := List.forall_mem_append.1 seated
      rw [placeAll]
      refine Run.ensures_bind (place_ensures_numbered here index) fun a ⟨kept, length⟩ => ?_
      refine Run.ensures_bind (ih (index + 1) fun item member => ?_) fun b ⟨later, lengths⟩ => ?_
      · exact (there item member).of_length length
      · exact Run.ensures_pure ⟨.cons kept later, lengths.trans length⟩

/-- The line that is flexed as the one of a number, with `auto` margins and a cross size. -/
def flexedAs (container : Container) (index autos : Nat) (cross : Int) (filled : FilledLine) :
    FilledLine :=
  let flexed := Line.flex { filled.line with autoMargins := autos }
    (filled.items.map fun item => { item with line := index })
    container.mainSpace container.mainGap
  ⟨{ flexed.1 with cross := cross }, flexed.2⟩

/-- Nothing becomes of a line but that it is flexed, once its `auto` margins are counted,
and given a cross size. -/
theorem place_flexedAs (container : Container) (filled : FilledLine) (index : Nat) (kids : List Kid) :
    Run.Ensures (fun a =>
        a.1 = flexedAs container index a.1.line.autoMargins a.1.line.cross filled)
      (place container
        ⟨filled.line, filled.items.map fun item => { item with line := index }⟩ kids) := by
  simp only [place]
  generalize countAutoMargins container.axes _ kids = count
  obtain ⟨used, frozen, counts⟩ := counts_flex { filled.line with autoMargins := count }
    (filled.items.map fun item => { item with line := index }) container.mainSpace container.mainGap
  have kept : (Line.flex { filled.line with autoMargins := count }
      (filled.items.map fun item => { item with line := index })
      container.mainSpace container.mainGap).1.autoMargins = count := by rw [counts]
  refine Run.ensures_bind (Run.ensures_true _) fun sized _ => Run.ensures_pure ?_
  exact congrArg (flexedAs container index · _ filled) kept.symm

/-- Lines that others became by flexing them one by one, from a number on. -/
structure FlexedAll (container : Container) (index : Nat) (lines made : List FilledLine) : Prop where
  length : made.length = lines.length
  each : ∀ (k : Nat) (filled after : FilledLine), lines[k]? = some filled → made[k]? = some after →
    after = flexedAs container (index + k) after.line.autoMargins after.line.cross filled

/-- The lines of a container are the lines that the items are broken into, flexed. -/
theorem placeAll_flexedAs (container : Container) (index : Nat) (lines : List FilledLine)
    (kids : List Kid) :
    Run.Ensures (fun a => FlexedAll container index lines a.1)
      (placeAll container index lines kids) := by
  induction lines generalizing index kids with
  | nil => exact Run.ensures_pure ⟨rfl, fun k filled made found => by simp at found⟩
  | cons filled rest ih =>
      rw [placeAll]
      refine Run.ensures_bind (place_flexedAs container filled index kids) fun a flexed => ?_
      refine Run.ensures_bind (ih (index + 1) a.2) fun b ⟨length, later⟩ => Run.ensures_pure ?_
      refine ⟨congrArg (· + 1) length, fun k line made found found' => ?_⟩
      cases k with
      | zero =>
          rw [List.getElem?_cons_zero, Option.some.injEq] at found found'
          subst found found'
          exact flexed
      | succ k =>
          rw [List.getElem?_cons_succ] at found found'
          rw [← Nat.add_assoc, Nat.add_right_comm]
          exact later k line made found found'

theorem map_child_placed {lines placed : List FilledLine}
    (kept : List.Forall₂ PlacedFrom lines placed) :
    (placed.flatMap FilledLine.items).map Item.child =
      (lines.flatMap FilledLine.items).map Item.child := by
  induction kept with
  | nil => rfl
  | cons first _ ih =>
      rw [List.flatMap_cons, List.flatMap_cons, List.map_append, List.map_append, first.map_child, ih]

end Line

end FlexLayout
