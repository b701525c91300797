/-
# FlexLayout.Proofs.Relayout -- layout does not read geometry that is out of date

A tree of boxes is laid out again and again, each time over the geometry of the time
before.  `Box.layOutFlex_eq_of_stale` says that this makes no difference: a flex container has
the same run, calls and failures included, whatever earlier layouts left in its own
edges and in its flex items.

A flex box needs this of its children (`layOut_coupled_same`), so that it holds of
all boxes is an induction on the box (`Box.routine`).  What a box of another kind does
is up to the environment, which must not look at the place of the box
(`Coupling.Keeps`); every host is like that.
-/
import FlexLayout.Proofs.Children.Hosted
import FlexLayout.Proofs.Stages.Close
import FlexLayout.Proofs.Stages.Lines

namespace FlexLayout

set_option autoImplicit false

open Pairing

/-! ## Boxes of other kinds -/

/-- The geometry of the children of a flex container, in two versions that layout does
not tell apart. -/
def Coupling.Stale (Γ : Coupling) : List Box → List Fragment → List Fragment → Prop
  | [], _, _ => True
  | box :: boxes, fragments, others =>
      Item.Entry Γ box (fragments.headD {}) (others.headD {}) ∧
        Γ.Stale boxes fragments.tail others.tail

/-- An environment does the same from geometry that may differ below a box, and without
looking where the box stands. -/
structure Coupling.Keeps (Γ : Coupling) (env : Environment) : Prop where
  flex : ∀ (box : Box) (children others : List Fragment), box.kind = .flex →
    Γ.Below box children others → Γ.Stale box.children children others
  contents : ∀ (px py : Prop) (box : Box) (available : Option Int) (frame other : Frame)
    (children others : List Fragment), box.kind ≠ .flex → frame.Agrees px py other →
    Γ.Below box children others →
    (∀ child ∈ box.children, Routine Γ child (child.layOut env) (child.layOut env)) →
    Γ.Holds (Fragment.Agrees px py)
      (Run.mapFailure (Failure.child box.kind)
        (env.layOutContents box.kind available frame (Kid.ofBoxes env box.children children)))
      (Run.mapFailure (Failure.child box.kind)
        (env.layOutContents box.kind available other (Kid.ofBoxes env box.children others)))

namespace Coupling

variable {ε α β : Type}

theorem exact_map {R : α → α → Prop} {run : Run ε α} {f : α → α} {g : ε → Failure}
    (changed : Run.Ensures (fun a => R a (f a)) run) :
    exact.Holds R (Run.mapFailure g run) (Run.mapFailure g (f <$> run)) := by
  intro log
  rw [Run.outcome_mapFailure, Run.outcome_mapFailure, map_eq_pure_bind, Run.outcome_bind]
  rcases ran : run.outcome log with ⟨result, calls⟩
  cases result with
  | error e => exact .error
  | ok a => exact .ok (changed log calls a ran)

/-- Runs whose results are known are coupled by that alone. -/
theorem onSuccess_of_ensures {R : α → β → Prop} {P : α → Prop} {Q : β → Prop}
    {run : Run Failure α} {other : Run Failure β} (left : Run.Ensures P run)
    (right : Run.Ensures Q other) (related : ∀ a b, P a → Q b → R a b) :
    onSuccess.Holds R run other :=
  fun log log' after after' a b done done' =>
    related a b (left log after a done) (right log' after' b done')

end Coupling

/-- Geometry that no layout reads. -/
theorem Coupling.stale_of_below {Γ : Coupling} (below : Γ.Below = Box.Below) {boxes : List Box}
    {fragments others : List Fragment} (stale : FlexLayout.Stale boxes fragments others) :
    Γ.Stale boxes fragments others := by
  induction boxes generalizing fragments others with
  | nil => trivial
  | cons box rest ih =>
      cases fragments with
      | nil =>
          cases others with
          | nil => exact ⟨Item.entry_refl box {}, ih (stale_refl rest [])⟩
          | cons other others => exact stale.elim
      | cons fragment fragments =>
          cases others with
          | nil => exact stale.elim
          | cons other others =>
              refine ⟨?_, ih stale.2⟩
              simp only [Item.Entry, Fresh]
              rw [below]
              exact stale.1

/-- Where nothing may differ below a box of another kind, its place is all that may. -/
theorem Coupling.keeps_of_below {Γ : Coupling} {env : Environment} (below : Γ.Below = Box.Below)
    (contents : ∀ (px py : Prop) (kind : BoxKind) (available : Option Int) (frame other : Frame)
      (kids : List Kid), frame.Agrees px py other →
      (∀ kid ∈ kids, Routine Γ kid.box kid.layOut kid.layOut) →
      Γ.Holds (Fragment.Agrees px py)
        (Run.mapFailure (Failure.child kind) (env.layOutContents kind available frame kids))
        (Run.mapFailure (Failure.child kind) (env.layOutContents kind available other kids))) :
    Γ.Keeps env where
  flex box children others flex stale := by
    obtain ⟨kind, style, generated, least, most, boxes⟩ := box
    rw [below, Box.Below, if_pos (by rw [show kind = .flex from flex]; rfl)] at stale
    exact stale_of_below below stale
  contents px py box available frame other children others kind agrees same routines := by
    obtain ⟨kind', style, generated, least, most, boxes⟩ := box
    rw [below, Box.Below, if_neg (by simpa [BoxKind.isFlex] using kind)] at same
    rw [same]
    refine contents px py _ available frame other _ agrees fun kid member => ?_
    rw [Kid.layOut_of_mem_ofBoxes member]
    exact routines kid.box (Kid.box_mem_of_mem_ofBoxes member)

namespace Host

theorem exact_holds (host : Host) {px py : Prop} {frame other : Frame}
    (agrees : frame.Agrees px py other) (kind : BoxKind) (available : Option Int) (kids : List Kid) :
    Coupling.exact.Holds (Fragment.Agrees px py)
      (Run.mapFailure (Failure.child kind) (host.layOutContents kind available frame kids))
      (Run.mapFailure (Failure.child kind) (host.layOutContents kind available other kids)) := by
  have moved : host.layOutContents kind available other kids =
      (·.moved other.x other.y) <$> host.layOutContents kind available frame kids :=
    (congrArg (host.layOutContents kind available · kids) agrees.moved).trans
      (host.layOutContents_moved kind available frame other.x other.y kids)
  rw [moved]
  refine Coupling.exact_map ((host.layOutContents_kept kind available frame kids).mono ?_)
  intro fragment kept
  exact ⟨⟨rfl, rfl, rfl, rfl, rfl, fun holds => (agrees.x holds).trans kept.x.symm,
    fun holds => (agrees.y holds).trans kept.y.symm⟩, rfl⟩

theorem exact_keeps (host : Host) : Coupling.exact.Keeps host.environment :=
  Coupling.keeps_of_below rfl fun _ _ kind available _ _ kids agrees _ =>
    host.exact_holds agrees kind available kids

end Host

/-! ## Flex boxes -/

namespace Container

/-- Only place and size of the old geometry tell in a container, and its `order` does
not. -/
theorem prepare_forgets (resolve : Resolver) [resolve.OrderBlind] (style : Style) (order : Int)
    (frame other : Frame) (available : Int) (width : other.width = frame.width)
    (height : other.height = frame.height) :
    prepare resolve (style.ordered order) other available =
      { prepare resolve style frame available with
        style := style.ordered order
        frame := { (prepare resolve style frame available).frame with
          x := other.x, y := other.y } } := by
  simp only [prepare, resolveFrame]
  rw [width, height]
  simp only [Style.withSizes_ordered, Style.limits_ordered, Style.gaps_ordered]
  rfl

end Container

theorem Pairing.numbers_same (child index : Nat) (boxes : List Box) :
    same.Numbers child index index boxes := by
  induction boxes generalizing child index with
  | nil => trivial
  | cons box rest ih => exact ⟨fun _ _ => rfl, ih _ _⟩

namespace Container

variable {Γ : Coupling} {resolve : Resolver} [resolve.OrderBlind] {style : Style}
  {frame other : Frame} {available : Int}

/-- **A flex container over other old geometry, with children that do not tell it
apart.** -/
theorem layOut_coupled_ordered (order : Int) {px py : Prop} {kids kids' : List Kid}
    (tracks : same.Tracks (fun _ kid kid' => kid.Enters Γ same kid') 0 0 kids kids')
    (width : other.width = frame.width) (height : other.height = frame.height)
    (x : px → other.x = frame.x) (y : py → other.y = frame.y) :
    Γ.Holds (Fragment.Agrees px py) (layOut resolve style frame kids available)
      (layOut resolve (style.ordered order) other kids' available) := by
  have begun := prepare_forgets resolve style order frame other available width height
  have alike : (prepare resolve style frame available).Alike
      (prepare resolve (style.ordered order) other available) := by
    rw [begun]
    exact ⟨⟨rfl, rfl, rfl, rfl, rfl, rfl, rfl, rfl⟩, rfl⟩
  have entry : EntryAlike Γ same resolve (prepare resolve style frame available)
      (prepare resolve (style.ordered order) other available) kids kids' :=
    { akin := alike.toAkin
      tracks := tracks
      numbers := numbers_same 0 0 _
      line := rfl
      order := rfl
      basis := by
        rw [begun]
        intro _ _ _ _
        exact rfl
      out := fun _ _ _ drop => Bool.noConfusion drop
      lines := by
        intro items _
        have breaking : (prepare resolve (style.ordered order) other available).breaking =
            (prepare resolve style frame available).breaking := by
          rw [begun]
          rfl
        rw [items_same, breaking]
        exact Line.lines_same alike (by rw [begun]) _
      dropped := fun _ drop => Bool.noConfusion drop }
  simp only [layOut]
  apply Γ.bind (flow_coupled entry)
  rintro flow flow' ⟨flows, first, second⟩
  have lines := Line.forall₂_of_lines (fun _ => rfl) flows.lines
  have crossSize := Flow.crossSize_alike lines (by rw [first, second]; exact alike.crossGap)
  have spread : SpreadsAlike same flow flow' := by
    apply Line.lines_of_forall₂
    rw [crossSize, first, second]
    exact Line.spreadLines_alike lines alike.wrap alike.crossGap (by rw [begun]) _
  have final : (flow.container.finalFrame flow.mainSize flow.crossSize).Agrees px py
      (flow'.container.finalFrame flow'.mainSize flow'.crossSize) := by
    rw [crossSize, Flow.mainSize_alike lines, first, second, begun]
    exact ⟨rfl, rfl, rfl, rfl, rfl, x, y⟩
  refine Γ.mono (Flow.close_coupled resolve (by rw [first, second]; exact alike.toAkin) flows spread
    entry.dropped final) ?_
  rintro a b ⟨frames, children⟩
  rw [kept_same] at children
  exact ⟨frames, children⟩

theorem layOut_coupled_same {px py : Prop} {kids kids' : List Kid}
    (tracks : same.Tracks (fun _ kid kid' => kid.Enters Γ same kid') 0 0 kids kids')
    (width : other.width = frame.width) (height : other.height = frame.height)
    (x : px → other.x = frame.x) (y : py → other.y = frame.y) :
    Γ.Holds (Fragment.Agrees px py) (layOut resolve style frame kids available)
      (layOut resolve style other kids' available) :=
  layOut_coupled_ordered style.order tracks width height x y

end Container

/-! ## All boxes -/

theorem Routine.of_ordered {Γ : Coupling} {env : Environment} {box : Box}
    {run : Fragment → Int → Run Failure Fragment}
    (routine : Routine Γ box run ((box.ordered box.style.order).layOut env)) :
    Routine Γ box run (box.layOut env) := by
  rwa [box.ordered_self] at routine

theorem Kid.ofBoxes_cons (env : Environment) (box : Box) (boxes : List Box)
    (fragments : List Fragment) :
    Kid.ofBoxes env (box :: boxes) fragments =
      ⟨box, fragments.headD {}, box.layOut env⟩ :: Kid.ofBoxes env boxes fragments.tail := by
  cases fragments with
  | nil => rw [Kid.ofBoxes]; rfl
  | cons fragment fragments => rw [Kid.ofBoxes]; rfl

theorem Kid.Enters.of_routine {Γ : Coupling} {env : Environment} {p : Pairing} {box : Box}
    {fragment other : Fragment} (routine : Routine Γ box (box.layOut env) (box.layOut env))
    (entry : Item.Entry Γ box fragment other)
    (order : p.order box.style.order = box.style.order) :
    (⟨box, fragment, box.layOut env⟩ : Kid).Enters Γ p ⟨box, other, box.layOut env⟩ :=
  ⟨⟨⟨box.style.order, box.ordered_self.symm⟩, routine, entry⟩, order.symm⟩

/-- The children of a flex box, over geometry that layout does not tell apart. -/
theorem Kid.ofBoxes_tracks_of_stale {Γ : Coupling} {env : Environment} (boxes : List Box)
    (routines : ∀ box ∈ boxes, Routine Γ box (box.layOut env) (box.layOut env)) (child : Nat)
    {fragments others : List Fragment} (stale : Γ.Stale boxes fragments others) :
    same.Tracks (fun _ kid kid' => kid.Enters Γ same kid') child child
      (Kid.ofBoxes env boxes fragments) (Kid.ofBoxes env boxes others) := by
  induction boxes generalizing child fragments others with
  | nil =>
      rw [Kid.ofBoxes, Kid.ofBoxes]
      exact .nil _ _
  | cons box rest ih =>
      obtain ⟨routine, routines⟩ := List.forall_mem_cons.1 routines
      obtain ⟨first, later⟩ := stale
      rw [Kid.ofBoxes_cons, Kid.ofBoxes_cons]
      exact .keep rfl rfl (.of_routine routine first rfl) (ih routines (child + 1) later)

mutual

/-- **A box is laid out alike over geometry that layout does not tell apart**, whatever
its `order`. -/
theorem Box.routine_ordered {Γ : Coupling} {env : Environment} [env.resolve.OrderBlind]
    (keeps : Γ.Keeps env) (order : Int) (box : Box) :
    Routine Γ box (box.layOut env) ((box.ordered order).layOut env) := by
  obtain ⟨kind, style, generated, least, most, boxes⟩ := box
  intro px py fragment other width frames below
  -- Down the tree: a box is laid out alike if its children are.
  have routines := Box.routines keeps boxes
  by_cases flex : kind = .flex
  · rw [Box.layOut_of_flex env _ fragment width flex, Box.layOut_of_flex env _ other width flex]
    exact Container.layOut_coupled_ordered order
      (Kid.ofBoxes_tracks_of_stale boxes routines 0 (keeps.flex _ _ _ flex below))
      frames.width frames.height frames.x frames.y
  · rw [Box.layOut_of_not_flex env _ fragment width flex,
      Box.layOut_of_not_flex env _ other width flex]
    exact keeps.contents px py _ _ _ _ _ _ flex frames below routines

theorem Box.routines {Γ : Coupling} {env : Environment} [env.resolve.OrderBlind]
    (keeps : Γ.Keeps env) (boxes : List Box) :
    ∀ box ∈ boxes, Routine Γ box (box.layOut env) (box.layOut env) := by
  match boxes with
  | [] => exact fun _ member => absurd member List.not_mem_nil
  | box :: boxes =>
      exact List.forall_mem_cons.2
        ⟨.of_ordered (Box.routine_ordered keeps box.style.order box), Box.routines keeps boxes⟩

end

theorem Kid.ofBoxes_tracks {env : Environment} [env.resolve.OrderBlind]
    (keeps : Coupling.exact.Keeps env) (boxes : List Box) (child : Nat)
    {fragments others : List Fragment} (stale : Stale boxes fragments others) :
    same.Tracks (fun _ kid kid' => kid.Enters Coupling.exact same kid') child child
      (Kid.ofBoxes env boxes fragments) (Kid.ofBoxes env boxes others) :=
  Kid.ofBoxes_tracks_of_stale boxes (Box.routines keeps boxes) child
    (Coupling.stale_of_below rfl stale)

namespace Box

theorem routine {Γ : Coupling} {env : Environment} [env.resolve.OrderBlind] (keeps : Γ.Keeps env)
    (box : Box) : Routine Γ box (box.layOut env) (box.layOut env) :=
  .of_ordered (routine_ordered keeps box.style.order box)

/-- **Layout does not read geometry that is out of date.**  Whatever the edges of a
flex container were, and the geometry of its flex items and of theirs, it has the same
run: from any log, the same result or the same failure, and the same calls. -/
theorem layOutFlex_eq_of_stale (host : Host) (box : Box) (frame : Frame)
    (margin : Sides (Option Int)) (padding border : Sides Int) {children others : List Fragment}
    (stale : Stale box.children children others) (available : Int) :
    box.layOutFlex host.environment
        ⟨{ frame with margin := margin, padding := padding, border := border }, others⟩ available =
      box.layOutFlex host.environment ⟨frame, children⟩ available := by
  have tracks := Kid.ofBoxes_tracks host.exact_keeps box.children 0 stale
  have coupled : Coupling.exact.Holds (Fragment.Agrees True True)
      (box.layOutFlex host.environment ⟨frame, children⟩ available)
      (box.layOutFlex host.environment
        ⟨{ frame with margin := margin, padding := padding, border := border }, others⟩ available) :=
    Container.layOut_coupled_same tracks rfl rfl (fun _ => rfl) (fun _ => rfl)
  refine (Coupling.eq_of_exact (Coupling.exact.mono coupled fun a b agrees => ?_)).symm
  exact agrees.eq.symm

/-- A nested flex item and its own item, with sizes and places of an earlier layout. -/
theorem layOutFlex_eq_of_stale_nested :
    let box : Box := { kind := .flex, children := [{ kind := .flex, children := [{}] }] }
    let clean : List Fragment := [⟨{}, [{}]⟩]
    let used : List Fragment :=
      [⟨{ x := 7, width := some 3, margin := .all none }, [⟨{ y := 2, height := some 5 }, []⟩]⟩]
    Stale box.children clean used ∧
      box.layOutFlex ({} : Host).environment ⟨{ padding := .all 9 }, used⟩ 100 =
        box.layOutFlex ({} : Host).environment ⟨{}, clean⟩ 100 := by
  intro box clean used
  have stale : Stale box.children clean used := ⟨⟨rfl, trivial⟩, trivial⟩
  exact ⟨stale, box.layOutFlex_eq_of_stale {} {} (.all (some 0)) (.all 9) (.all 0) stale 100⟩

end Box

end FlexLayout
