/-
# FlexLayout.Sides -- the four sides of a box
-/

namespace FlexLayout

set_option autoImplicit false

inductive Side where
  | top
  | right
  | bottom
  | left
deriving DecidableEq, Repr, Inhabited

structure Sides (α : Type) where
  top : α
  right : α
  bottom : α
  left : α
deriving DecidableEq, Repr, Inhabited

namespace Sides

variable {α β : Type}

def all (value : α) : Sides α := ⟨value, value, value, value⟩

def get (s : Sides α) : Side → α
  | .top => s.top
  | .right => s.right
  | .bottom => s.bottom
  | .left => s.left

def set (s : Sides α) (side : Side) (value : α) : Sides α :=
  match side with
  | .top => { s with top := value }
  | .right => { s with right := value }
  | .bottom => { s with bottom := value }
  | .left => { s with left := value }

def map (f : α → β) (s : Sides α) : Sides β := ⟨f s.top, f s.right, f s.bottom, f s.left⟩

theorem get_set_self (s : Sides α) (side : Side) (value : α) :
    (s.set side value).get side = value := by cases side <;> rfl

theorem get_set_ne (s : Sides α) {side other : Side} (value : α) (h : other ≠ side) :
    (s.set side value).get other = s.get other := by
  cases side <;> cases other <;> first | rfl | exact absurd rfl h

theorem get_map (f : α → β) (s : Sides α) (side : Side) : (s.map f).get side = f (s.get side) := by
  cases side <;> rfl

theorem get_all (value : α) (side : Side) : (all value).get side = value := by
  cases side <;> rfl

end Sides

end FlexLayout
