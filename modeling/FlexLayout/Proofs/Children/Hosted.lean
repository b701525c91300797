/-
# FlexLayout.Proofs.Children.Hosted -- what a host does with a box

A box that is no flex container is laid out by a host.  A successful host leaves the
box as it is, or fills in the width it was offered and a height
(`Host.layOutContents_ensures`).  So it keeps the place, the edges and the known sizes
of the box (`Host.layOutContents_kept`), and it does the same with a box that stands
elsewhere (`Host.layOutContents_moved`).  It also provides the pixels of lengths, which
depend on a reference size only where there is a percentage (`Host.resolve_absolute`).
-/
import FlexLayout.Host
import FlexLayout.Proofs.Children.Alike

namespace FlexLayout

set_option autoImplicit false

structure Frame.SameEdges (frame other : Frame) : Prop where
  margin : other.margin = frame.margin
  padding : other.padding = frame.padding
  border : other.border = frame.border

/-- What laying out a box that is no flex container keeps of its geometry. -/
structure Frame.Kept (frame after : Frame) : Prop extends frame.SameEdges after where
  x : after.x = frame.x
  y : after.y = frame.y
  width : ∀ size, frame.width = some size → after.width = some size
  height : ∀ size, frame.height = some size → after.height = some size

theorem Frame.kept_refl (frame : Frame) : frame.Kept frame :=
  ⟨⟨rfl, rfl, rfl⟩, rfl, rfl, fun _ => id, fun _ => id⟩

def Frame.filled (frame : Frame) (available : Option Int) (height : Int) : Frame :=
  { frame with width := frame.width <|> available, height := some (frame.height.getD height) }

theorem Frame.kept_filled (frame : Frame) (available : Option Int) (height : Int) :
    frame.Kept (frame.filled available height) := by
  refine ⟨⟨rfl, rfl, rfl⟩, rfl, rfl, ?_, ?_⟩
  · intro size known
    simp [Frame.filled, known]
  · intro size known
    simp [Frame.filled, known]

/-- The length has no percentage part. -/
def Length.absolute : Length → Bool
  | .percent _ => false
  | .calc _ share => share == 0
  | .px _ | .em _ | .rem _ | .vw _ | .vh _ => true

/-- Such a length has the same pixels whatever percentages refer to. -/
theorem Host.resolve_absolute (host : Host) (style : Style) {length : Length}
    (absolute : length.absolute = true) (reference : Option Int) :
    host.resolve style length reference = host.resolve style length none := by
  simp only [Host.resolve]
  split
  · rcases length with _ | _ | _ | _ | _ | share | ⟨px, share⟩
    iterate 5 rfl
    · exact absurd absolute Bool.false_ne_true
    · simp only [Length.absolute] at absolute
      simp only [Units.resolve, absolute, if_true]
  · rfl

/-- No host reads `order` to resolve a length. -/
instance Host.orderBlind (host : Host) : host.resolve.OrderBlind where
  blind style order := by
    simp only [Host.resolve]
    split
    · funext length reference
      cases length <;> rfl
    · rfl

instance Host.orderBlind_environment (host : Host) : host.environment.resolve.OrderBlind :=
  host.orderBlind

def Fragment.moved (fragment : Fragment) (x y : Int) : Fragment :=
  { fragment with frame := { fragment.frame with x := x, y := y } }

namespace Host

/-- **A host that does not refuse a box leaves it as it is or fills in its sizes**, the
height that a leaf has being zero. -/
theorem layOutContents_ensures (host : Host) (kind : BoxKind) (available : Option Int)
    (frame : Frame) (kids : List Kid) {P : Fragment → Prop}
    (noop : host.conduct = .noop → P ⟨frame, kids.map Kid.fragment⟩)
    (leaf : host.conduct = .leaf → P ⟨frame.filled available 0, kids.map Kid.fragment⟩)
    (stack : host.conduct = .stack →
      ∀ (height : Int) (children : List Fragment), P ⟨frame.filled available height, children⟩) :
    Run.Ensures P (host.layOutContents kind available frame kids) := by
  simp only [layOutContents]
  refine Run.ensures_bind (Run.ensures_true _) ?_
  intro position _
  split
  · intro log after fragment done
    simp at done
  · cases conduct : host.conduct with
    | noop => exact Run.ensures_pure (noop conduct)
    | leaf => exact Run.ensures_pure (leaf conduct)
    | stack =>
        refine Run.ensures_bind (Run.ensures_true _) ?_
        intro stacked _
        exact Run.ensures_pure (stack conduct _ _)

/-- **A host keeps the place, the edges and the known sizes of a box.** -/
theorem layOutContents_kept (host : Host) (kind : BoxKind) (available : Option Int)
    (frame : Frame) (kids : List Kid) :
    Run.Ensures (fun fragment => frame.Kept fragment.frame)
      (host.layOutContents kind available frame kids) := by
  apply layOutContents_ensures
  · intro _
    exact frame.kept_refl
  · intro _
    exact frame.kept_filled available 0
  · intro _ height children
    exact frame.kept_filled available height

theorem layOutContents_of_leaf {host : Host} (conduct : host.conduct = .leaf) (kind : BoxKind)
    (available : Option Int) (frame : Frame) (kids : List Kid) :
    Run.Ensures (fun fragment => fragment = ⟨frame.filled available 0, kids.map Kid.fragment⟩)
      (host.layOutContents kind available frame kids) := by
  apply layOutContents_ensures
  · intro other
    exact absurd (conduct.symm.trans other) (by decide)
  · intro _
    rfl
  · intro other
    exact absurd (conduct.symm.trans other) (by decide)

theorem layOutContents_moved (host : Host) (kind : BoxKind) (available : Option Int) (frame : Frame)
    (x y : Int) (kids : List Kid) :
    host.layOutContents kind available { frame with x := x, y := y } kids =
      (fun fragment => fragment.moved x y) <$> host.layOutContents kind available frame kids := by
  simp only [layOutContents]
  rw [map_bind]
  congr 1
  funext position
  split
  · rfl
  · cases host.conduct with
    | leaf => rfl
    | noop => rfl
    | stack =>
        dsimp only
        rw [map_bind]
        rfl

end Host

end FlexLayout
