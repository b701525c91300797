/-
# FlexLayout.Failure -- why layout fails

Layout itself fails only when a working array cannot grow.  Everything else is a
collaborator's refusal, which is passed on with the kind of box it was asked for.
A refusal may have causes of its own, and a nested flex layout can be one of them.
-/
import FlexLayout.Box

namespace FlexLayout

set_option autoImplicit false

/-- The arrays that layout allocates. -/
inductive WorkArray where
  | items
  | lines
deriving DecidableEq, Repr, Inhabited

mutual

/-- Why a flex container could not be laid out. -/
inductive Failure where
  /-- An array could not grow. -/
  | noMemory (array : WorkArray)
  /-- A box that is not a flex container could not be laid out. -/
  | child (kind : BoxKind) (cause : Cause)

/-- Why a collaborator could not lay out a box. -/
inductive Cause where
  /-- A bare reason. -/
  | reason (text : String)
  /-- A reason that wraps another cause. -/
  | because (text : String) (cause : Cause)
  /-- The collaborator refused a box of this kind with so many children. -/
  | refused (kind : BoxKind) (children : Nat)
  /-- A flex container inside the box failed. -/
  | nested (failure : Failure)

end

deriving instance DecidableEq for Failure, Cause

def WorkArray.title : WorkArray → String
  | .items => "items"
  | .lines => "lines"

def capacityText : String :=
  "memory allocation failed because the computed capacity exceeded the collection's maximum"

mutual

/-- The failure in words, with its immediate cause. -/
def Failure.message : Failure → String
  | .noMemory array => s!"out of memory allocating flex {array.title}: {capacityText}"
  | .child kind cause => s!"{kind.title} flex item layout failed: {cause.message}"

/-- The cause in words, without what it wraps. -/
def Cause.message : Cause → String
  | .reason text => text
  | .because text _ => text
  | .refused kind children => s!"{kind.title} layout refused for {children} children"
  | .nested failure => failure.message

end

mutual

/-- The messages of all causes below a failure, outermost first. -/
def Failure.chain : Failure → List String
  | .noMemory _ => [capacityText]
  | .child _ cause => cause.message :: cause.chain

def Cause.chain : Cause → List String
  | .reason _ => []
  | .because _ cause => cause.message :: cause.chain
  | .refused _ _ => []
  | .nested failure => failure.chain

end

end FlexLayout
