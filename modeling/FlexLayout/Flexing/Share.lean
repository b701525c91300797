/-
# FlexLayout.Flexing.Share -- whole pixels in proportion to weights

`Share.next` hands out whole pixels one weight after the other.  What has been
handed out after some weights is the exact proportion of their sum, cut toward
zero; so the fraction of a pixel that one weight loses goes to the next, and when
all of the total weight has been taken the shares add up to the whole amount.
Weight beyond the total counts as the total.
-/
import FlexLayout.Pixel

namespace FlexLayout

set_option autoImplicit false

/-- An amount of pixels that is being divided. -/
structure Share where
  /-- Pixels to divide. -/
  amount : Int
  /-- Weight that stands for the whole amount. -/
  total : Int
  /-- Weight taken so far. -/
  weight : Int := 0
  /-- Pixels handed out so far. -/
  dealt : Int := 0
deriving DecidableEq, Repr, Inhabited

namespace Share

/-- The part of the amount that belongs to the first `weight` of the total. -/
def reached (share : Share) (weight : Int) : Int := (share.amount * weight).tdiv share.total

def next (share : Share) (weight : Int) : Int × Share :=
  if share.total ≤ 0 then
    (0, share)
  else
    let taken := min (share.weight + max weight 0) share.total
    let reached := share.reached taken
    ((Pixel.fit? (reached - share.dealt)).getD 0, { share with weight := taken, dealt := reached })

/-- Hand out shares along a list: every element of positive claim, in order, gets
the pixels for its weight. -/
def deal {α : Type} (claims : α → Bool) (weight : α → Int) (give : α → Int → α) (share : Share) :
    List α → List α
  | [] => []
  | a :: rest =>
      if claims a then
        give a (share.next (weight a)).1 :: deal claims weight give (share.next (weight a)).2 rest
      else
        a :: deal claims weight give share rest

theorem length_deal {α : Type} (claims : α → Bool) (weight : α → Int) (give : α → Int → α)
    (share : Share) (list : List α) :
    (deal claims weight give share list).length = list.length := by
  induction list generalizing share with
  | nil => rfl
  | cons a rest ih => simp only [deal]; split <;> simp [ih]

end Share

end FlexLayout
