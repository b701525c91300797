/-
# FlexLayout.Style -- the style values that layout reads

Values arrive already cascaded.  Lengths stay unresolved until layout knows the
size that percentages refer to (`FlexLayout.Units`).

An absent value is `none`: for a size or a margin it reads `auto`, for a maximum
it reads "no limit", for a gap it reads `normal`, and for `alignSelf` it means
"as the container says".  The defaults of `Style` are the initial values.
-/
import FlexLayout.Sides

namespace FlexLayout

set_option autoImplicit false

/-- A length or percentage before resolution. -/
inductive Length where
  /-- Pixels. -/
  | px (value : Float32)
  /-- Multiples of the box's own font size. -/
  | em (value : Float32)
  /-- Multiples of the root font size. -/
  | rem (value : Float32)
  /-- Hundredths of the viewport width. -/
  | vw (value : Float32)
  /-- Hundredths of the viewport height. -/
  | vh (value : Float32)
  /-- Hundredths of the reference size. -/
  | percent (value : Float32)
  /-- A sum of pixels and hundredths of the reference size. -/
  | calc (px percent : Float32)
deriving Repr, Inhabited

/-- Where a flex base size comes from. -/
inductive Basis where
  /-- The specified main size if there is one, else the content. -/
  | auto
  /-- The content. -/
  | content
  /-- An explicit length. -/
  | length (value : Length)
deriving Repr, Inhabited

inductive Direction where
  | row
  | rowReverse
  | column
  | columnReverse
deriving DecidableEq, Repr, Inhabited

/-- Whether items may wrap onto further lines, and from which edge lines stack. -/
inductive Wrap where
  | nowrap
  | wrap
  | wrapReverse
deriving DecidableEq, Repr, Inhabited

inductive Justify where
  | flexStart
  | flexEnd
  | center
  | spaceBetween
  | spaceAround
  | spaceEvenly
deriving DecidableEq, Repr, Inhabited

inductive Alignment where
  | stretch
  | flexStart
  | flexEnd
  | center
  | baseline
deriving DecidableEq, Repr, Inhabited

inductive Overflow where
  | visible
  | hidden
  | clip
  | auto
  | scroll
deriving DecidableEq, Repr, Inhabited

inductive Position where
  | static
  | relative
  | absolute
  | fixed
deriving DecidableEq, Repr, Inhabited

/-- Which box `width` and `height` describe. -/
inductive BoxSizing where
  | contentBox
  | borderBox
deriving DecidableEq, Repr, Inhabited

/-- The computed style of a box, as far as layout reads it. -/
structure Style where
  fontSize : Float32 := 16
  position : Position := .static
  overflowX : Overflow := .visible
  overflowY : Overflow := .visible
  boxSizing : BoxSizing := .contentBox
  margin : Sides (Option Length) := .all (some (.px 0))
  padding : Sides Length := .all (.px 0)
  /-- Border widths in pixels. -/
  borderWidth : Sides Float32 := .all 0
  width : Option Length := none
  height : Option Length := none
  minWidth : Option Length := none
  minHeight : Option Length := none
  maxWidth : Option Length := none
  maxHeight : Option Length := none
  direction : Direction := .row
  wrap : Wrap := .nowrap
  basis : Basis := .auto
  grow : Float32 := 0
  shrink : Float32 := 1
  order : Int := 0
  justify : Justify := .flexStart
  alignItems : Alignment := .stretch
  alignSelf : Option Alignment := none
  rowGap : Option Length := none
  columnGap : Option Length := none
deriving Repr, Inhabited

namespace Style

/-- Absolutely and fixed positioned boxes take no space in their container. -/
def outOfFlow (style : Style) : Bool :=
  match style.position with
  | .absolute | .fixed => true
  | .static | .relative => false

end Style

/-- The alignment of an item: its own, or else the one its container gives. -/
def Alignment.resolve (own : Option Alignment) (container : Alignment) : Alignment :=
  own.getD container

end FlexLayout
