/-
# FlexLayout.Proofs.Reach -- what late height touches

Late height goes down a tree from column to column, and each of them may change its
children before they are visited in turn.  `Slack.reach?` follows it along a path: it is
the subtree at the end as late height finds it there, with what the columns on the way have
made of it.

A box is changed once, by the step of its own container, so a frame that is not what it was
has a cause there (`Slack.Caused`): a column on the way, with height left over when it is
visited, and the box on its stack.  Everything else stays (`spread_touches`).  A column
that has no height left over changes nothing, and the columns in it are visited all the
same (`reach?_of_idle`).
-/
import FlexLayout.Proofs.Idempotence.Changes
import FlexLayout.Proofs.Spreading.Steps
import FlexLayout.Tree

namespace FlexLayout

set_option autoImplicit false

namespace Slack

variable {resolve : Resolver} {tree container : Tree} {path : List Nat} {i : Nat}

def spreadTree (resolve : Resolver) (tree : Tree) : Tree :=
  { tree with fragment := spread resolve tree.box tree.fragment }

/-- The tree after the step of its own column. -/
def stepTree (resolve : Resolver) (tree : Tree) : Tree :=
  { tree with fragment := { tree.fragment with
      children := spreadHere resolve tree.box.style tree.box.children tree.fragment } }

/-- The subtree at the end of a path through columns, as late height finds it there. -/
def reach? (resolve : Resolver) : Tree → List Nat → Option Tree
  | tree, [] => some tree
  | tree, i :: path =>
      if tree.box.isColumn then
        ((stepTree resolve tree).child? i).bind fun child => reach? resolve child path
      else none

/-- Height is left over in a column: it has a height, and its stack takes less. -/
def Roomy (resolve : Resolver) (container : Tree) : Prop :=
  ∃ height, container.fragment.frame.height = some height ∧
    0 < leftOver resolve container.box.style container.box.children container.fragment height

/-- The step that changes a box at the end of a path: that of a column which late height
reaches, which has height left over then, and on whose stack the box is. -/
structure Caused (resolve : Resolver) (tree : Tree) (path : List Nat) (box : Box) : Prop where
  step : ∃ front i container, path = front ++ [i] ∧ reach? resolve tree front = some container ∧
    container.box.isColumn = true ∧ Roomy resolve container
  participates : box.participates = true
  inFlow : box.outOfFlow = false

/-- What late height makes of a subtree: the same box, with its frame lifted if there is a
cause for it. -/
structure Touched (resolve : Resolver) (tree : Tree) (path : List Nat) (sub after : Tree) : Prop where
  box : after.box = sub.box
  lifted : sub.fragment.frame.Lifted after.fragment.frame
  cause : after.fragment.frame ≠ sub.fragment.frame → Caused resolve tree path sub.box

theorem Touched.refl (resolve : Resolver) (tree : Tree) (path : List Nat) (sub : Tree) :
    Touched resolve tree path sub sub :=
  ⟨rfl, .refl _, fun changed => absurd rfl changed⟩

/-! ## One step down -/

theorem child?_eq_some {child : Tree} : tree.child? i = some child ↔
    tree.box.children[i]? = some child.box ∧ tree.fragment.children[i]? = some child.fragment := by
  obtain ⟨box, fragment⟩ := child
  simp only [Tree.child?]
  cases tree.box.children[i]? <;> cases tree.fragment.children[i]? <;> simp

theorem getElem?_spreadAll (resolve : Resolver) {boxes : List Box} {box : Box}
    (found : boxes[i]? = some box) (fragments : List Fragment) :
    (spreadAll resolve boxes fragments)[i]? = fragments[i]?.map (spread resolve box) := by
  induction boxes generalizing i fragments with
  | nil => simp at found
  | cons first rest ih =>
      cases fragments with
      | nil => simp [spreadAll]
      | cons fragment fragments =>
          rw [spreadAll]
          cases i with
          | zero =>
              obtain rfl : first = box := Option.some.inj found
              rfl
          | succ i => exact ih found fragments

/-- The step of a column keeps its children, and does to each what it does. -/
theorem child?_stepTree (resolve : Resolver) {child : Tree} (found : tree.child? i = some child) :
    ∃ next, (stepTree resolve tree).child? i = some next ∧ next.box = child.box ∧
      Steps resolve tree.box.style tree.box.children tree.fragment i child.fragment next.fragment := by
  obtain ⟨atBox, atFragment⟩ := child?_eq_some.1 found
  obtain ⟨after, at_, steps⟩ :=
    spreadHere_step resolve tree.box.style tree.box.children tree.fragment i atFragment
  exact ⟨⟨child.box, after⟩, child?_eq_some.2 ⟨atBox, at_⟩, rfl, steps⟩

theorem child?_stepTree_eq_none (resolve : Resolver) (missing : tree.child? i = none) :
    (stepTree resolve tree).child? i = none := by
  by_contra there
  obtain ⟨next, found⟩ := Option.ne_none_iff_exists'.1 there
  obtain ⟨atBox, atFragment⟩ := child?_eq_some.1 found
  obtain ⟨bound, -⟩ := List.getElem?_eq_some_iff.1 atFragment
  have inside : i < tree.fragment.children.length := by
    rw [← length_spreadHere resolve tree.box.style tree.box.children tree.fragment]
    exact bound
  have child : tree.child? i = some ⟨next.box, tree.fragment.children[i]⟩ :=
    child?_eq_some.2 ⟨atBox, List.getElem?_eq_getElem inside⟩
  rw [missing] at child
  cases child

/-- The children of a column are visited after its step. -/
theorem child?_spreadTree (resolve : Resolver) (column : tree.box.isColumn = true) (i : Nat) :
    (spreadTree resolve tree).child? i = ((stepTree resolve tree).child? i).map (spreadTree resolve) := by
  obtain ⟨⟨kind, style, generated, least, most, boxes⟩, fragment⟩ := tree
  have spread_eq : spread resolve ⟨kind, style, generated, least, most, boxes⟩ fragment =
      { fragment with
        children := spreadAll resolve boxes (spreadHere resolve style boxes fragment) } := by
    simp only [spread]
    exact if_pos column
  simp only [spreadTree, stepTree, Tree.child?, spread_eq]
  cases found : boxes[i]? with
  | none => rfl
  | some box =>
      rw [getElem?_spreadAll resolve found]
      cases (spreadHere resolve style boxes fragment)[i]? <;> rfl

theorem spreadTree_of_not_column (resolve : Resolver) (other : tree.box.isColumn = false) :
    spreadTree resolve tree = tree := by
  rw [spreadTree, spread_of_not_column resolve tree.box other]

theorem at?_of_children {other : Tree} (box : other.box = tree.box)
    (children : other.fragment.children = tree.fragment.children) (i : Nat) (path : List Nat) :
    other.at? (i :: path) = tree.at? (i :: path) := by
  simp only [Tree.at?, Tree.child?, box, children]

theorem reach?_cons (column : tree.box.isColumn = true) {next : Tree}
    (found : (stepTree resolve tree).child? i = some next) (path : List Nat) :
    reach? resolve tree (i :: path) = reach? resolve next path := by
  rw [reach?, if_pos column, found]
  rfl

theorem Caused.down (column : tree.box.isColumn = true) {next : Tree}
    (found : (stepTree resolve tree).child? i = some next) {box : Box}
    (caused : Caused resolve next path box) : Caused resolve tree (i :: path) box := by
  obtain ⟨⟨front, k, container, rfl, reached, roomy⟩, participates, inFlow⟩ := caused
  exact ⟨⟨i :: front, k, container, rfl, (reach?_cons column found front).trans reached, roomy⟩,
    participates, inFlow⟩

/-! ## The whole tree -/

/-- **Late height keeps every box, and touches it only for a cause.** -/
theorem touched_at (resolve : Resolver) (tree : Tree) (path : List Nat) :
    Option.Rel (Touched resolve tree path) (tree.at? path)
      ((spreadTree resolve tree).at? path) := by
  -- Down the path, since a column takes its own step before late height goes on below it.
  induction path generalizing tree with
  | nil =>
      refine .some ⟨rfl, ?_, fun changed => ?_⟩
      · rw [spreadTree, spread_frame]
        exact .refl _
      · exact absurd (spread_frame resolve tree.box tree.fragment) changed
  | cons i path ih =>
      cases column : tree.box.isColumn with
      | false =>
          rw [spreadTree_of_not_column resolve column]
          cases tree.at? (i :: path) with
          | none => exact .none
          | some sub => exact .some (.refl resolve tree _ sub)
      | true =>
          rw [Tree.at?, Tree.at?, child?_spreadTree resolve column]
          cases found : tree.child? i with
          | none =>
              rw [child?_stepTree_eq_none resolve found]
              exact .none
          | some child =>
              obtain ⟨next, stepped, box, steps⟩ := child?_stepTree resolve found
              rw [stepped]
              cases path with
              | nil =>
                  -- The child itself: only the step of its column touches its frame.
                  have frame := spread_frame resolve next.box next.fragment
                  refine .some ⟨box, ?_, fun changed => ?_⟩
                  · rw [spreadTree, frame]
                    exact steps.lifted
                  · obtain ⟨height, child', known, more, at_, takes⟩ :=
                      steps.cause fun same => changed (frame.trans same)
                    obtain rfl := Option.some.inj (at_.symm.trans (child?_eq_some.1 found).1)
                    exact ⟨⟨[], i, tree, rfl, rfl, column, height, known, more⟩, takes.1, takes.2⟩
              | cons j path =>
                  -- Further down, late height finds the child as the step of its column leaves it.
                  have below := ih next
                  rw [at?_of_children box steps.children] at below
                  show Option.Rel _ (child.at? (j :: path)) ((spreadTree resolve next).at? (j :: path))
                  generalize child.at? (j :: path) = sub at below ⊢
                  generalize (spreadTree resolve next).at? (j :: path) = after at below ⊢
                  cases below with
                  | none => exact .none
                  | some touched =>
                      exact .some ⟨touched.box, touched.lifted, fun changed =>
                        (touched.cause changed).down column stepped⟩

/-- **What late height reaches is in the result as spreading late height in it leaves it.** -/
theorem at?_of_reach? (resolve : Resolver) (tree : Tree) (path : List Nat) {visited : Tree}
    (reached : reach? resolve tree path = some visited) :
    (spreadTree resolve tree).at? path = some (spreadTree resolve visited) := by
  induction path generalizing tree with
  | nil =>
      obtain rfl := Option.some.inj reached
      rfl
  | cons i path ih =>
      rw [reach?] at reached
      split at reached
      next column =>
        obtain ⟨next, stepped, reached⟩ := Option.bind_eq_some_iff.1 reached
        rw [Tree.at?, child?_spreadTree resolve column, stepped]
        exact ih next reached
      next => cases reached

theorem reach?_concat (resolve : Resolver) (tree : Tree) (path : List Nat) (i : Nat) :
    reach? resolve tree (path ++ [i]) =
      (reach? resolve tree path).bind fun container => reach? resolve container [i] := by
  induction path generalizing tree with
  | nil => rfl
  | cons j path ih =>
      rw [List.cons_append, reach?, reach?]
      split
      · cases (stepTree resolve tree).child? j with
        | none => rfl
        | some next => exact ih next
      · rfl

/-- A column without height that is left over does nothing in its own step. -/
theorem stepTree_of_idle (idle : ¬Roomy resolve tree) : stepTree resolve tree = tree := by
  obtain ⟨box, frame, children⟩ := tree
  simp only [stepTree, spreadHere]
  cases known : frame.height with
  | none => rfl
  | some height =>
      dsimp only
      rcases settle_cases resolve box.style frame height
        (inStackOrder box.children (children.map Fragment.frame)) with ⟨-, none⟩ | ⟨more, -⟩
      · rw [none]
        rfl
      · exact absurd ⟨height, known, more⟩ idle

/-- **Late height goes on through a column that has none left over**, and finds its
children as they are. -/
theorem reach?_of_idle (reached : reach? resolve tree path = some container)
    (column : container.box.isColumn = true) (idle : ¬Roomy resolve container) (i : Nat) :
    reach? resolve tree (path ++ [i]) = container.child? i := by
  rw [reach?_concat, reached, Option.bind_some, reach?, if_pos column, stepTree_of_idle idle]
  cases container.child? i <;> rfl

/-- **Late height touches only what it owns.**  The root keeps its frame.  Every box of the
tree stays where it is in the tree, and its frame is lifted at most, if it is on the stack
of a column that late height reaches and that has height left over.  Columns that are
reached get their late height as they are by then, also behind one that has none left
over. -/
theorem spread_touches (resolve : Resolver) (tree : Tree) :
    (spreadTree resolve tree).fragment.frame = tree.fragment.frame ∧
    (∀ path, Option.Rel (Touched resolve tree path) (tree.at? path)
      ((spreadTree resolve tree).at? path)) ∧
    (∀ path visited, reach? resolve tree path = some visited →
      (spreadTree resolve tree).at? path = some (spreadTree resolve visited)) ∧
    ∀ path container, reach? resolve tree path = some container →
      container.box.isColumn = true → ¬Roomy resolve container →
      ∀ i, reach? resolve tree (path ++ [i]) = container.child? i :=
  ⟨spread_frame resolve tree.box tree.fragment, touched_at resolve tree,
    fun path _ reached => at?_of_reach? resolve tree path reached,
    fun _ _ reached column idle i => reach?_of_idle reached column idle i⟩

/-- A full column with a column in it that has room: the child of that one is moved.  The
column in a row next to it is not reached. -/
theorem spread_touches_nested :
    let resolve := ({} : Host).resolve
    let leaf : Fragment := ⟨{ height := some 30, margin := { Sides.all (some 0) with top := none } }, []⟩
    let inner : Box := { kind := .flex, style := { direction := .column }, children := [{}] }
    let tree : Tree :=
      { box := { inner with children := [inner, { kind := .flex, children := [inner] }] }
        fragment := ⟨{ height := some 150 }, [⟨{ height := some 100 }, [leaf]⟩,
          ⟨{ height := some 50 }, [⟨{ height := some 50 }, [leaf]⟩]⟩]⟩ }
    ¬Roomy resolve tree ∧ reach? resolve tree [0] = tree.child? 0 ∧
      ((spreadTree resolve tree).at? [0, 0]).map (fun sub => sub.fragment.frame.y) = some 70 ∧
      Caused resolve tree [0, 0] {} ∧
      ((spreadTree resolve tree).at? [1, 0, 0]).map (fun sub => sub.fragment.frame.y) = some 0 := by
  intro resolve leaf inner tree
  have idle : ¬Roomy resolve tree := by
    rintro ⟨height, known, more⟩
    obtain rfl := Option.some.inj known
    rw [leftOver, stackOf, inStackOrder_eq_insertionSort] at more
    exact absurd more (by decide +kernel)
  have moved : ((spreadTree resolve tree).at? [0, 0]).map (fun sub => sub.fragment.frame.y) =
      some 70 := by
    simp only [tree, inner, spreadTree, spread, spreadHere, inStackOrder_eq_insertionSort]
    decide +kernel
  have stays : ((spreadTree resolve tree).at? [1, 0, 0]).map (fun sub => sub.fragment.frame.y) =
      some 0 := by
    simp only [tree, inner, spreadTree, spread, spreadHere, inStackOrder_eq_insertionSort]
    decide +kernel
  obtain ⟨-, touched, -, onward⟩ := spread_touches resolve tree
  refine ⟨idle, onward [] tree rfl rfl idle 0, moved, ?_, stays⟩
  have touched := touched [0, 0]
  rw [show tree.at? [0, 0] = some ⟨{}, leaf⟩ from rfl] at touched
  generalize (spreadTree resolve tree).at? [0, 0] = after at moved touched
  cases touched with
  | some touched =>
      refine touched.cause fun same => ?_
      rw [Option.map_some, same] at moved
      exact absurd moved (by decide)

end Slack

end FlexLayout
