/-
# FlexLayout.Units -- lengths to pixels

A `Resolver` turns a length into whole pixels, given the style that the length
belongs to and the size that percentages refer to.  Without a reference size a
percentage has no pixel value, and the caller treats it as `auto`.

`Units.resolve` is the usual resolver.  Its arithmetic is single precision,
operation by operation in the order written; the result is rounded once, halves
away from zero.
-/
import FlexLayout.Binary32
import FlexLayout.Style

namespace FlexLayout

set_option autoImplicit false

/-- Pixels of a length for a style, against an optional reference size. -/
abbrev Resolver := Style → Length → Option Int → Option Int

/-- What lengths are relative to, apart from the box's own style. -/
structure Units where
  rootFontSize : Float32 := 16
  viewportWidth : Int := 800
  viewportHeight : Int := 600
deriving Repr, Inhabited

namespace Units

open Binary32 (toPixels)

/-- A hundredth part for each unit of `share`, of the whole size `size`. -/
def ofWhole (share : Float32) (size : Int) : Float32 := share * Float32.ofInt size / 100

def ofReference (reference : Int) (percent : Float32) : Float32 :=
  Float32.ofInt reference * percent / 100

/-- Pixels of a length.  Percentages need a reference size, and so does a sum
with a percentage part. -/
def resolve (units : Units) : Resolver := fun style length reference =>
  match length with
  | .px value => some (toPixels value)
  | .em value => some (toPixels (value * style.fontSize))
  | .rem value => some (toPixels (value * units.rootFontSize))
  | .vw value => some (toPixels (ofWhole value units.viewportWidth))
  | .vh value => some (toPixels (ofWhole value units.viewportHeight))
  | .percent value => reference.map fun size => toPixels (ofReference size value)
  | .calc px percent =>
      if percent == 0 then some (toPixels px)
      else reference.map fun size => toPixels (px + ofReference size percent)

theorem resolve_percent_none (units : Units) (style : Style) (value : Float32) :
    units.resolve style (.percent value) none = none := rfl

end Units

end FlexLayout
