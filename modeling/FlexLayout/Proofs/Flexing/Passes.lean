/-
# FlexLayout.Proofs.Flexing.Passes -- more passes than items change nothing

A pass that freezes an item brings the end nearer.  A pass that freezes none is
followed by the same pass again, if it handed out space, or else by one that
freezes every item where it is (`closing_flexPasses_of_stall`).  Either way what
flexing ends with -- the used size and the items, up to the bounds they hit -- is
settled after as many passes as there are unfrozen items, and one
(`closing_flexPasses_add`).
-/
import FlexLayout.Proofs.Flexing.Tally

namespace FlexLayout

set_option autoImplicit false

namespace Item

/-- The item without the bound that it was last held to. -/
def calm (item : Item) : Item := { item with violation := .none }

def give (growing : Bool) (item : Item) (share : Int) : Item :=
  { item with target := if growing then Pixel.add item.base share else Pixel.sub item.base share }

def weight (growing : Bool) (item : Item) : Int :=
  if growing then item.grow.raw else item.shrinkWeight

end Item

namespace Line

/-! ## What a waiting item leaves as it was -/

theorem freeSpace_of_waits {items after : List Item} (waits : List.Forall₂ Item.Waits items after)
    (available : Int) : freeSpace available after = freeSpace available items := by
  simp only [freeSpace]
  induction waits generalizing available with
  | nil => rfl
  | @cons item item' _ _ first _ ih =>
      have claim : item'.claim = item.claim := by
        simp only [Item.claim]
        rw [first.frozen, first.base]
        split
        · rename_i done
          exact first.target done
        · rfl
      rw [List.foldl_cons, List.foldl_cons, first.outOfFlow, claim, ih]

/-- What counts the unfrozen items by what flexing leaves alone. -/
theorem map_filter_of_waits {β : Type} {cond : Item → Bool} {f : Item → β} {items after : List Item}
    (waits : List.Forall₂ Item.Waits items after)
    (hit : ∀ item item', Item.Waits item item' → cond item' = cond item)
    (value : ∀ item item', Item.Waits item item' → f item' = f item) :
    (after.filter cond).map f = (items.filter cond).map f := by
  induction waits with
  | nil => rfl
  | @cons item item' _ _ first _ ih =>
      rw [List.filter_cons, List.filter_cons, hit item item' first]
      split
      · rw [List.map_cons, List.map_cons, value item item' first, ih]
      · exact ih

theorem factorSum_of_waits {items after : List Item} (waits : List.Forall₂ Item.Waits items after)
    (growing : Bool) : factorSum growing after = factorSum growing items := by
  simp only [factorSum]
  rw [map_filter_of_waits waits]
  · intro item item' first
    rw [first.frozen, first.outOfFlow]
  · intro item item' first
    rw [first.factor]

theorem passSpace_of_waits {items after : List Item} (waits : List.Forall₂ Item.Waits items after)
    (growing : Bool) (initial available : Int) :
    passSpace growing initial available after = passSpace growing initial available items := by
  simp only [passSpace]
  rw [freeSpace_of_waits waits, factorSum_of_waits waits]

theorem shrinkTotal_of_waits {items after : List Item} (waits : List.Forall₂ Item.Waits items after) :
    (after.filter fun item => !item.frozen).map Item.shrinkWeight =
      (items.filter fun item => !item.frozen).map Item.shrinkWeight := by
  refine map_filter_of_waits waits (fun item item' first => ?_) fun item item' first => ?_
  · rw [first.frozen]
  · exact (congrArg Item.shrinkWeight first.unflexed :)

/-! ## What flexing ends with -/

/-- What a state of flexing ends with if everything is frozen now: the used size and
the items, up to the bounds that they hit. -/
def closing (state : Line × List Item) : Int × List Item :=
  ((state.1.freeze (fun _ => true) state.2).1.used,
    (state.1.freeze (fun _ => true) state.2).2.map Item.calm)

theorem closing_eq (line : Line) (items : List Item) :
    closing (line, items) =
      ((sizesInFlow (items.filter fun item => !item.frozen)).foldl Pixel.add line.used,
        items.map fun item => { item with frozen := true, violation := .none }) := by
  refine Prod.ext ?_ ?_
  · show (line.tally _).used = _
    rw [used_tally]
    simp only [Bool.and_true]
  · show (items.map (Item.freezeIf fun _ => true)).map Item.calm = _
    rw [List.map_map]
    apply List.map_congr_left
    intro item _
    rw [Function.comp_apply, Item.freezeIf_always]
    rfl

theorem closing_congr {line line' : Line} {items items' : List Item} (used : line.used = line'.used)
    (same : items.map Item.calm = items'.map Item.calm) :
    closing (line, items) = closing (line', items') := by
  have calmed (state : Line) (list : List Item) :
      closing (state, list) = closing (state, list.map Item.calm) := by
    rw [closing_eq, closing_eq, List.filter_map, List.map_map, sizesInFlow, sizesInFlow,
      List.filter_map, List.map_map]
    rfl
  rw [calmed line, calmed line', same, closing_eq, closing_eq, used]

theorem closing_freeze (line : Line) (items : List Item) :
    closing (line.freeze (fun _ => true) items) = closing (line, items) := by
  have none_ : (items.map (Item.freezeIf fun _ => true)).filter (fun item => !item.frozen) = [] := by
    rw [List.filter_eq_nil_iff]
    intro after member
    obtain ⟨item, -, rfl⟩ := List.mem_map.1 member
    simp [Item.freezeIf_always]
  refine (closing_eq _ _).trans (Prod.ext ?_ ?_)
  · show (sizesInFlow ((items.map (Item.freezeIf fun _ => true)).filter _)).foldl _ _ = _
    rw [none_]
    rfl
  · show (items.map (Item.freezeIf fun _ => true)).map _ =
      (items.map (Item.freezeIf fun _ => true)).map Item.calm
    rw [List.map_map, List.map_map]
    apply List.map_congr_left
    intro item _
    rw [Function.comp_apply, Function.comp_apply, Item.freezeIf_always]
    rfl

/-! ## A pass that freezes nothing -/

theorem natAbs_passSpace_le (growing : Bool) (initial available : Int) (items : List Item) :
    (passSpace growing initial available items).natAbs ≤ (freeSpace available items).natAbs := by
  simp only [passSpace]
  split
  · split
    · exact Nat.le_of_lt ‹_›
    · exact Nat.le_refl _
  · exact Nat.le_refl _

theorem frozen_freeze (line : Line) (cond : Item → Bool) (items : List Item) :
    (line.freeze cond items).1.frozen =
      line.frozen + (items.filter fun item => !item.frozen && cond item).length := rfl

/-- The first half of a pass: hand out the space, if there is any. -/
def dealt (growing : Bool) (free : Int) (line : Line) (items : List Item) : Line × List Item :=
  if free = 0 then (line, items) else apportion growing free line items

/-- The second half of a pass: hold the targets and freeze. -/
def settled (state : Line × List Item) : Line × List Item :=
  state.1.freeze (freezes (totalViolation state.2)) (holdTargets state.2)

theorem flexPass_eq (growing : Bool) (initial available : Int) (line : Line) (items : List Item) :
    flexPass growing initial available line items =
      settled (dealt growing (passSpace growing initial available items) line items) := rfl

theorem frozen_le_settled (state : Line × List Item) : state.1.frozen ≤ (settled state).1.frozen :=
  Nat.le_add_right _ _

theorem frozen_le_dealt (growing : Bool) (free : Int) (line : Line) (items : List Item) :
    line.frozen ≤ (dealt growing free line items).1.frozen := by
  simp only [dealt]
  split
  · exact Nat.le_refl _
  · rcases apportion_cases growing free line items with ⟨waiting, -, all | none_⟩
    · rw [all]
      exact Nat.le_add_right _ _
    · exact Nat.le_of_eq (by rw [none_])

theorem frozen_le_flexPass (growing : Bool) (initial available : Int) (line : Line)
    (items : List Item) :
    line.frozen ≤ (flexPass growing initial available line items).1.frozen := by
  rw [flexPass_eq]
  exact Nat.le_trans (frozen_le_dealt _ _ _ _) (frozen_le_settled _)

/-- If holding the targets freezes nothing, that is all it does. -/
theorem settled_of_stall (state : Line × List Item)
    (stall : (settled state).1.frozen = state.1.frozen) :
    settled state = (state.1, holdTargets state.2) := by
  have none_ : ((holdTargets state.2).filter fun item =>
      !item.frozen && freezes (totalViolation state.2) item) = [] := by
    have counted : state.1.frozen + _ = state.1.frozen := stall
    exact List.eq_nil_of_length_eq_zero (Nat.add_left_cancel counted)
  refine Prod.ext ?_ ?_
  · show state.1.tally ((holdTargets state.2).filter _) = state.1
    rw [none_]
    rfl
  · show (holdTargets state.2).map (Item.freezeIf _) = _
    refine (List.map_congr_left fun item member => ?_).trans (List.map_id _)
    have missed := List.filter_eq_nil_iff.1 none_ item member
    rw [Item.freezeIf, if_neg missed, id]

/-- The space that a pass hands out in shares. -/
def shareOf (growing : Bool) (free : Int) (items : List Item) : Share :=
  if growing then { amount := free, total := factorSum true items }
  else
    { amount := Pixel.magnitude free
      total := ((items.filter fun item => !item.frozen).map Item.shrinkWeight).sum }

def handOut (growing : Bool) (share : Share) (items : List Item) : List Item :=
  Share.deal (fun item => !item.frozen) (Item.weight growing) (Item.give growing) share items

theorem handOut_frozen {growing : Bool} {share : Share} {item : Item} (done : item.frozen = true)
    (rest : List Item) :
    handOut growing share (item :: rest) = item :: handOut growing share rest := by
  rw [handOut, Share.deal, if_neg (by simp [done])]
  rfl

theorem handOut_open {growing : Bool} {share : Share} {item : Item} (open_ : item.frozen = false)
    (rest : List Item) :
    handOut growing share (item :: rest) =
      item.give growing (share.next (item.weight growing)).1 ::
        handOut growing (share.next (item.weight growing)).2 rest := by
  rw [handOut, Share.deal, if_pos (by simp [open_])]
  rfl

theorem fair_shareOf {growing : Bool} {free : Int} (nonneg : growing = true → 0 ≤ free)
    (items : List Item) : (shareOf growing free items).Fair := by
  cases growing with
  | true => exact Share.fair_start (nonneg rfl)
  | false => exact Share.fair_start (magnitude_nonneg free)

/-- A fair share hands no item less than nothing. -/
theorem handOut_fair (growing : Bool) {share : Share} (fair : share.Fair) (items : List Item) :
    List.Forall₂ (fun item after => (item.frozen = true ∧ after = item) ∨
        (item.frozen = false ∧ ∃ pixels, 0 ≤ pixels ∧ after = item.give growing pixels))
      items (handOut growing share items) := by
  refine (Share.forall₂_deal Share.Fair (fun _ pixels => 0 ≤ pixels)
    (fun _ claim fair => fair.next claim) fair items).imp ?_
  rintro item after (⟨frozen, same⟩ | ⟨open_, given⟩)
  · exact .inl ⟨by simpa using frozen, same⟩
  · exact .inr ⟨by simpa using open_, given⟩

def Weighty (growing : Bool) (items : List Item) : Prop :=
  growing = true ∨ 0 < ((items.filter fun item => !item.frozen).map Item.shrinkWeight).sum

theorem apportion_of_weighty {growing : Bool} {items : List Item} (weighty : Weighty growing items)
    (free : Int) (line : Line) :
    apportion growing free line items =
      (line, handOut growing (shareOf growing free items) items) := by
  unfold apportion
  cases growing with
  | true => rfl
  | false =>
      have positive := weighty.resolve_left Bool.false_ne_true
      rw [if_neg Bool.false_ne_true]
      dsimp only
      rw [if_neg (by omega)]
      rfl

theorem frozen_lt_apportion {growing : Bool} {items : List Item} (weightless : ¬Weighty growing items)
    (free : Int) {line : Line} (tallied : Tallied line items) (open_ : line.frozen < items.length) :
    line.frozen < (apportion growing free line items).1.frozen := by
  obtain ⟨shrinks, total⟩ := not_or.1 weightless
  rw [Bool.not_eq_true] at shrinks
  subst shrinks
  unfold apportion
  rw [if_neg Bool.false_ne_true]
  dsimp only
  rw [if_pos (by omega), frozen_freeze]
  have waits : List.Forall₂ Item.Waits items (items.map fun item =>
      if item.frozen then item else { item with target := item.hypothetical }) := by
    refine List.forall₂_map_right_iff.2 (List.forall₂_same.2 fun item _ => ?_)
    split
    · exact ⟨rfl, rfl, fun _ => rfl⟩
    · rename_i waiting
      exact ⟨rfl, rfl, fun done => absurd done waiting⟩
  have count := List.length_eq_countP_add_countP Item.frozen
    (l := items.map fun item =>
      if item.frozen then item else { item with target := item.hypothetical })
  have frozen := countP_frozen_of_waits waits
  have before := tallied.frozen
  simp only [Bool.and_true, ← List.countP_eq_length_filter]
  rw [List.length_map] at count
  simp only [Bool.decide_coe, decide_not] at count ⊢
  omega

/-- **A pass that freezes nothing only holds targets.** -/
theorem flexPass_of_stall {growing : Bool} {initial available : Int} {line : Line}
    {items : List Item} (tallied : Tallied line items) (open_ : line.frozen < items.length)
    (stall : (flexPass growing initial available line items).1.frozen = line.frozen) :
    ∃ waiting, List.Forall₂ Item.Waits items waiting ∧
      dealt growing (passSpace growing initial available items) line items = (line, waiting) ∧
      (passSpace growing initial available items = 0 ∨ Weighty growing items) ∧
      flexPass growing initial available line items = (line, holdTargets waiting) := by
  rw [flexPass_eq] at stall ⊢
  generalize passSpace growing initial available items = free at stall ⊢
  have first := frozen_le_dealt growing free line items
  have second := frozen_le_settled (dealt growing free line items)
  have hold := settled_of_stall (dealt growing free line items) (by omega)
  rw [hold]
  simp only [dealt] at stall hold first second ⊢
  by_cases nothing : free = 0
  · rw [if_pos nothing]
    exact ⟨items, List.forall₂_same.2 fun item _ => ⟨rfl, rfl, fun _ => rfl⟩, rfl, .inl nothing, rfl⟩
  · rw [if_neg nothing] at stall first second ⊢
    by_cases weighty : Weighty growing items
    · rw [apportion_of_weighty weighty]
      exact ⟨_, waits_deal (fun _ _ => ⟨_, rfl⟩) _ _, rfl, .inr weighty, rfl⟩
    · have more := frozen_lt_apportion weighty free tallied open_
      omega

/-- Handing out the same shares after the targets were held gives the same items, up
to the bounds that they hit. -/
theorem handOut_again (growing : Bool) (share : Share) (items : List Item) :
    List.Forall₂ (fun again before : Item => again.frozen = before.frozen ∧
        again.target = before.target ∧ again.hold = before.hold ∧ again.holdOpen = before.holdOpen)
      (handOut growing share (holdTargets (handOut growing share items)))
      (handOut growing share items) := by
  simp only [holdTargets_eq]
  induction items generalizing share with
  | nil => exact .nil
  | cons item rest ih =>
      cases done : item.frozen with
      | true =>
          rw [handOut_frozen done, List.map_cons, Item.holdOpen_frozen done, handOut_frozen done]
          exact .cons ⟨rfl, rfl, rfl, rfl⟩ (ih share)
      | false =>
          let given := item.give growing (share.next (item.weight growing)).1
          have open_ : given.frozen = false := done
          obtain ⟨violation, held⟩ := given.exists_holdTarget
          have waiting : given.holdTarget.frozen = false := given.frozen_holdTarget.trans open_
          have weight : given.holdTarget.weight growing = item.weight growing := by
            rw [held]
            rfl
          have again (pixels : Int) : given.holdTarget.give growing pixels =
              { item.give growing pixels with violation := violation } := by
            rw [held]
            rfl
          rw [handOut_open done, List.map_cons, Item.holdOpen_open open_, handOut_open waiting,
            weight, again]
          refine .cons ⟨rfl, rfl, rfl, ?_⟩ (ih _)
          have still : ({ given with violation := violation } : Item).frozen = false := open_
          exact (Item.holdOpen_open still).trans (Item.holdOpen_open open_).symm

theorem totalViolation_again {again before : List Item}
    (same : List.Forall₂ (fun again before : Item => again.frozen = before.frozen ∧
      again.target = before.target ∧ again.hold = before.hold ∧ again.holdOpen = before.holdOpen)
      again before) :
    totalViolation again = totalViolation before ∧ holdTargets again = holdTargets before := by
  rw [totalViolation_eq, totalViolation_eq, holdTargets_eq, holdTargets_eq]
  suffices lists : ((again.filter fun item => !item.frozen).map
        fun item => Pixel.sub (item.hold item.target) item.target) =
      ((before.filter fun item => !item.frozen).map
        fun item => Pixel.sub (item.hold item.target) item.target) ∧
      again.map Item.holdOpen = before.map Item.holdOpen by
    exact ⟨congrArg (List.foldl Pixel.add 0) lists.1, lists.2⟩
  induction same with
  | nil => exact ⟨rfl, rfl⟩
  | cons first _ ih =>
      obtain ⟨frozen, target, hold, held⟩ := first
      constructor
      · rw [List.filter_cons, List.filter_cons, frozen]
        split
        · rw [List.map_cons, List.map_cons, target, hold, ih.1]
        · exact ih.1
      · rw [List.map_cons, List.map_cons, held, ih.2]

theorem totalViolation_of_held {items : List Item}
    (held : ∀ item ∈ items, item.frozen = false → item.Held) : totalViolation items = 0 := by
  rw [totalViolation_eq]
  induction items with
  | nil => rfl
  | cons item rest ih =>
      obtain ⟨here, later⟩ := List.forall_mem_cons.1 held
      rw [List.filter_cons]
      cases done : item.frozen with
      | true => exact ih later
      | false =>
          have none_ : Pixel.sub (item.hold item.target) item.target = 0 := by
            rw [here done]
            simp only [Pixel.sub]
            rw [Int.sub_self]
            rfl
          rw [Bool.not_false, if_pos rfl, List.map_cons, none_]
          exact ih later

theorem held_holdTargets (items : List Item) :
    ∀ item ∈ holdTargets items, item.frozen = false → item.Held := by
  rw [holdTargets_eq]
  intro after member open_
  obtain ⟨item, -, rfl⟩ := List.mem_map.1 member
  cases done : item.frozen with
  | true => simp [Item.holdOpen_frozen done, done] at open_
  | false =>
      obtain ⟨violation, held⟩ := item.exists_holdTarget
      rw [Item.holdOpen_open done, held]
      exact item.hold_hold_main item.target

theorem calm_holdTargets_twice (items : List Item) :
    (holdTargets (holdTargets items)).map Item.calm = (holdTargets items).map Item.calm := by
  rw [holdTargets_eq, holdTargets_eq, List.map_map, List.map_map, List.map_map]
  apply List.map_congr_left
  intro item _
  rw [Function.comp_apply, Function.comp_apply, Function.comp_apply]
  cases done : item.frozen with
  | true => rw [Item.holdOpen_frozen done, Item.holdOpen_frozen done]
  | false =>
      have still : item.holdTarget.frozen = false := item.frozen_holdTarget.trans done
      obtain ⟨violation, held⟩ := item.exists_holdTarget
      obtain ⟨violation', held'⟩ := item.holdTarget.exists_holdTarget
      have kept : item.holdTarget.hold item.holdTarget.target = item.holdTarget.target := by
        rw [held]
        exact item.hold_hold_main item.target
      rw [Item.holdOpen_open done, Item.holdOpen_open still, held', kept]
      rfl

theorem flexPasses_of_all {growing : Bool} {initial available : Int} {line : Line}
    {items : List Item} (all : items.length ≤ line.frozen) (n : Nat) :
    flexPasses growing initial available n line items = (line, items) := by
  cases n with
  | zero => rfl
  | succ n => rw [flexPasses, if_pos all]

theorem length_le_frozen_freeze {line : Line} {items : List Item} (tallied : Tallied line items) :
    (line.freeze (fun _ => true) items).2.length ≤
      (line.freeze (fun _ => true) items).1.frozen := by
  rw [(tallied.freeze _).frozen, freeze_snd]
  refine Nat.le_of_eq (List.countP_eq_length.2 fun item member => ?_).symm
  obtain ⟨source, -, rfl⟩ := List.mem_map.1 member
  rw [Item.freezeIf_always]

section

variable {growing : Bool} {initial available : Int} {line : Line} {items waiting : List Item}

/-- Without space to hand out, a pass over targets within the limits freezes every item. -/
theorem flexPass_held (nothing : passSpace growing initial available items = 0)
    (held : ∀ item ∈ items, item.frozen = false → item.Held) :
    flexPass growing initial available line items =
      line.freeze (fun _ => true) (holdTargets items) := by
  have freezes_all : freezes 0 = fun _ => true := rfl
  rw [flexPass_eq, nothing, dealt, if_pos rfl, settled, totalViolation_of_held held, freezes_all]

/-- With space to hand out, a pass over held targets hands out the same shares again. -/
theorem flexPass_again (space : passSpace growing initial available items ≠ 0)
    (weighty : Weighty growing items) (held : List.Forall₂ Item.Waits items (holdTargets waiting))
    (first : dealt growing (passSpace growing initial available items) line items = (line, waiting)) :
    flexPass growing initial available line (holdTargets waiting) =
      flexPass growing initial available line items := by
  rw [flexPass_eq, flexPass_eq, passSpace_of_waits held]
  generalize passSpace growing initial available items = free at space first ⊢
  have weighty' : Weighty growing (holdTargets waiting) := by
    simp only [Weighty]
    rw [shrinkTotal_of_waits held]
    exact weighty
  have shares : shareOf growing free (holdTargets waiting) = shareOf growing free items := by
    simp only [shareOf]
    rw [shrinkTotal_of_waits held, factorSum_of_waits held]
  rw [dealt, if_neg space, apportion_of_weighty weighty] at first
  have handed : handOut growing (shareOf growing free items) items = waiting :=
    congrArg Prod.snd first
  have repeated := totalViolation_again (handOut_again growing (shareOf growing free items) items)
  rw [handed] at repeated
  rw [dealt, dealt, if_neg space, if_neg space, apportion_of_weighty weighty,
    apportion_of_weighty weighty', shares, handed, settled, settled]
  dsimp only
  rw [repeated.1, repeated.2]

/-- **After a pass that froze nothing, further passes change nothing.**  If there is
space to hand out, the next pass hands it out in the same shares.  If there is none,
it freezes every item where it is. -/
theorem closing_flexPasses_of_stall (tallied : Tallied line items)
    (open_ : line.frozen < items.length)
    (stall : (flexPass growing initial available line items).1.frozen = line.frozen) (n : Nat) :
    closing (flexPasses growing initial available n
        (flexPass growing initial available line items).1
        (flexPass growing initial available line items).2) =
      closing (flexPass growing initial available line items) := by
  obtain ⟨waiting, waits, first, space, pass⟩ := flexPass_of_stall tallied open_ stall
  have held : List.Forall₂ Item.Waits items (holdTargets waiting) := by
    rw [holdTargets_eq, List.forall₂_map_right_iff]
    exact waits.imp fun item after step => step.trans (waits_holdOpen after)
  have more : ¬(holdTargets waiting).length ≤ line.frozen := by
    rw [← held.length_eq]
    omega
  -- Without space the next pass freezes every item where it is; with space it is the same again.
  by_cases nothing : passSpace growing initial available items = 0
  · rw [pass]
    cases n with
    | zero => rfl
    | succ n =>
        have next : flexPass growing initial available line (holdTargets waiting) =
            line.freeze (fun _ => true) (holdTargets (holdTargets waiting)) :=
          flexPass_held ((passSpace_of_waits held growing initial available).trans nothing)
            (held_holdTargets waiting)
        have waits' : List.Forall₂ Item.Waits (holdTargets waiting)
            (holdTargets (holdTargets waiting)) := by
          rw [holdTargets_eq (holdTargets waiting), List.forall₂_map_right_iff]
          exact List.forall₂_same.2 fun item _ => waits_holdOpen item
        have again := (tallied.waits held).waits waits'
        rw [flexPasses, if_neg more]
        dsimp only
        rw [next, flexPasses_of_all (length_le_frozen_freeze again)]
        exact (closing_freeze _ _).trans (closing_congr rfl (calm_holdTargets_twice waiting))
  · have fixed := flexPass_again nothing (space.resolve_left nothing) held first
    rw [pass] at fixed ⊢
    congr 1
    induction n with
    | zero => rfl
    | succ n ih =>
        rw [flexPasses, if_neg more]
        dsimp only
        rw [fixed]
        exact ih

end

/-- **More passes than there are unfrozen items change nothing.** -/
theorem closing_flexPasses_add (growing : Bool) (initial available : Int) {n : Nat} {line : Line}
    {items : List Item} (tallied : Tallied line items) (enough : items.length < line.frozen + n)
    (more : Nat) :
    closing (flexPasses growing initial available (n + more) line items) =
      closing (flexPasses growing initial available n line items) := by
  induction n generalizing line items with
  | zero => rw [flexPasses_of_all (by omega), flexPasses_of_all (by omega)]
  | succ n ih =>
      by_cases all : items.length ≤ line.frozen
      · rw [flexPasses_of_all all, flexPasses_of_all all]
      · rw [Nat.add_right_comm, flexPasses, flexPasses, if_neg all, if_neg all]
        dsimp only
        have grown := frozen_le_flexPass growing initial available line items
        have length := (flexPass_passed growing initial available line items).length_eq
        -- A pass that freezes nothing settles what all others end with; any other uses up an item.
        by_cases stall : (flexPass growing initial available line items).1.frozen = line.frozen
        · rw [closing_flexPasses_of_stall tallied (by omega) stall,
            closing_flexPasses_of_stall tallied (by omega) stall]
        · exact ih tallied.flexPass (by omega)

end Line

end FlexLayout
