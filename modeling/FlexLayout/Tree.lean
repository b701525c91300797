/-
# FlexLayout.Tree -- boxes together with their geometry

A `Tree` pairs a box with its fragment, so that both can be edited in step.  A
subtree is addressed by the child positions on the way to it.
-/
import FlexLayout.Fragment

namespace FlexLayout

set_option autoImplicit false

structure Tree where
  box : Box := {}
  fragment : Fragment := {}
deriving Repr, Inhabited

namespace Tree

def child? (tree : Tree) (position : Nat) : Option Tree :=
  match tree.box.children[position]?, tree.fragment.children[position]? with
  | some box, some fragment => some ⟨box, fragment⟩
  | _, _ => none

def setChild (tree : Tree) (position : Nat) (child : Tree) : Tree where
  box := { tree.box with children := tree.box.children.set position child.box }
  fragment :=
    { tree.fragment with children := tree.fragment.children.set position child.fragment }

def withChildren (tree : Tree) (children : List Tree) : Tree where
  box := { tree.box with children := children.map Tree.box }
  fragment := { tree.fragment with children := children.map Tree.fragment }

def push (tree : Tree) (child : Tree) : Tree where
  box := { tree.box with children := tree.box.children ++ [child.box] }
  fragment := { tree.fragment with children := tree.fragment.children ++ [child.fragment] }

def remove (tree : Tree) (position : Nat) : Tree where
  box := { tree.box with children := tree.box.children.eraseIdx position }
  fragment := { tree.fragment with children := tree.fragment.children.eraseIdx position }

/-- The subtree at the end of a path. -/
def at? : Tree → List Nat → Option Tree
  | tree, [] => some tree
  | tree, position :: path => (tree.child? position).bind fun child => child.at? path

def replace : Tree → List Nat → Tree → Tree
  | _, [], new => new
  | tree, position :: path, new =>
      match tree.child? position with
      | some child => tree.setChild position (child.replace path new)
      | none => tree

end Tree

end FlexLayout
