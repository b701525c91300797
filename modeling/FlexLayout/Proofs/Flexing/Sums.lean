/-
# FlexLayout.Proofs.Flexing.Sums -- what the items of a line take together

Flexing compares sums over the items in flow with the room they have
(`Line.sumInFlow`).  It adds up with saturation; as long as the positive parts stay in
the range, the sums are exact or end below zero (`Pixel.foldl_add_cases`), so their
signs can be trusted (`freeSpace_cases`, `totalViolation_cases`).

Shares that are dealt out by weight add up to the whole amount, so growing items take
all that is handed to them, and shrinking items give exactly as much as is asked for
(`sumInFlow_divide_shareOf`), as long as no item is cut off at an end of the range
(`handOut_eq_divide`).
-/
import FlexLayout.Proofs.Flexing.Parts
import FlexLayout.Proofs.Flexing.Passes

namespace FlexLayout

set_option autoImplicit false

namespace Pixel

theorem le_sum_map_max {size : Int} {sizes : List Int} (member : size ∈ sizes) :
    size ≤ (sizes.map (max 0)).sum := by
  have each : ∀ part ∈ sizes.map (max 0), 0 ≤ part :=
    List.forall_mem_map.2 fun part _ => Int.le_max_left 0 part
  have part := List.single_le_sum each (max 0 size) (List.mem_map_of_mem member)
  exact Int.le_trans (Int.le_max_right 0 size) part

/-- **A saturating sum whose positive parts are in range is exact, or ends below zero**,
and then no lower than the exact sum.  The terms may themselves be cut off below. -/
theorem foldl_add_cases {sizes terms : List Int} {start : Int}
    (cut : List.Forall₂ (fun size term => term = size ∨ size ≤ term ∧ term = -2147483648) sizes terms)
    (most : max 0 start + (sizes.map (max 0)).sum ≤ 2147483647) :
    terms.foldl add start = start + sizes.sum ∨
      start + sizes.sum ≤ terms.foldl add start ∧ terms.foldl add start < 0 := by
  -- Once a sum is cut off, it is below zero, and the positive parts that follow keep it in range.
  induction cut generalizing start with
  | nil => exact .inl (Int.add_zero start).symm
  | @cons size term sizes terms first _ ih =>
      rw [List.map_cons, List.sum_cons] at most
      have above := sum_map_max_nonneg sizes
      have below := sum_le_sum_map_max sizes
      have next : max 0 (add start term) + (sizes.map (max 0)).sum ≤ 2147483647 := by
        simp only [add, saturate]
        omega
      have rest := ih next
      rw [List.foldl_cons, List.sum_cons]
      generalize terms.foldl add (add start term) = total at rest ⊢
      simp only [add, saturate] at rest
      omega

end Pixel

namespace Share

/-- Amounts that are dealt out by weights from none on, in the range of pixels. -/
structure Sound (share : Share) : Prop extends share.Fair where
  start : 0 ≤ share.weight
  range : share.amount ≤ 2147483647

theorem sound_start {amount : Int} (total : Int) (nonneg : 0 ≤ amount)
    (range : amount ≤ 2147483647) : Sound { amount := amount, total := total } :=
  ⟨fair_start nonneg, Int.le_refl 0, range⟩

theorem reached_with (share : Share) (weight dealt claim : Int) :
    ({ share with weight := weight, dealt := dealt } : Share).reached claim = share.reached claim :=
  rfl

theorem dealt_nonneg {share : Share} (sound : share.Sound) (total : 0 < share.total) :
    0 ≤ share.dealt := by
  rw [sound.dealt]
  exact Int.tdiv_nonneg (Int.mul_nonneg sound.amount sound.start) (Int.le_of_lt total)

theorem next_weightless {share : Share} (fair : share.Fair) {claim : Int} (weightless : claim ≤ 0) :
    (share.next claim).1 = 0 := by
  simp only [Share.next]
  split
  · rfl
  · have weight := fair.weight (by omega)
    have same : min (share.weight + max claim 0) share.total = share.weight := by omega
    rw [same, ← fair.dealt, Int.sub_self]
    rfl

/-- The share for the next weight is what is reached with it and was not before. -/
theorem Sound.next {share : Share} (sound : share.Sound) (total : 0 < share.total) (claim : Int) :
    (share.next claim).1 =
        share.reached (min (share.weight + max claim 0) share.total) - share.dealt ∧
      (share.next claim).1 ≤ share.amount ∧
      (share.next claim).2 =
        { share with
          weight := min (share.weight + max claim 0) share.total
          dealt := share.reached (min (share.weight + max claim 0) share.total) } ∧
      (share.next claim).2.Sound := by
  have fair := sound.toFair.next claim
  have begun := dealt_nonneg sound total
  have amount := sound.amount
  have range := sound.range
  have part : share.Part :=
    ⟨⟨by omega, range⟩, total, sound.start, sound.weight total, sound.dealt⟩
  obtain ⟨-, same, state⟩ := part.next_eq claim
  obtain ⟨above, -⟩ := part.between claim
  have next := part.next claim
  refine ⟨same, ?_, state, fair.2, next.start, next.pixels.2⟩
  have most := (above amount).2.2
  omega

end Share

namespace Item

/-- An item with its share, wherever that takes it. -/
def receive (growing : Bool) (item : Item) (share : Int) : Item :=
  { item with target := if growing then item.base + share else item.base - share }

/-- What an item can take of a line below zero. -/
def deficit (item : Item) : Int := max 0 (-(min item.base item.minMain))

/-- What an item takes of the line for sure: its final size, or its hypothetical size. -/
def sure (item : Item) : Int := if item.frozen then item.target else item.hypothetical

def held (item : Item) : Int := if item.frozen then item.target else item.hold item.target

end Item

namespace Line

def sumInFlow (f : Item → Int) (items : List Item) : Int :=
  (items.map fun item => if item.outOfFlow then 0 else f item).sum

section

variable {f g : Item → Int}

theorem sumInFlow_cons (f : Item → Int) (item : Item) (rest : List Item) :
    sumInFlow f (item :: rest) = (if item.outOfFlow then 0 else f item) + sumInFlow f rest := rfl

theorem sumInFlow_eq_sum_filter (f : Item → Int) (items : List Item) :
    sumInFlow f items = ((items.filter fun item => !item.outOfFlow).map f).sum := by
  induction items with
  | nil => rfl
  | cons item rest ih =>
      rw [sumInFlow_cons, ih, List.filter_cons]
      cases item.outOfFlow with
      | true => exact Int.zero_add _
      | false => rfl

theorem sum_sizesInFlow (items : List Item) :
    (sizesInFlow items).sum = sumInFlow Item.target items :=
  (sumInFlow_eq_sum_filter Item.target items).symm

theorem sumInFlow_le {R : Item → Item → Prop} {items after : List Item}
    (related : List.Forall₂ R items after)
    (flow : ∀ a b, R a b → b.outOfFlow = a.outOfFlow)
    (le : ∀ a b, R a b → a.outOfFlow = false → f a ≤ g b) :
    sumInFlow f items ≤ sumInFlow g after := by
  refine List.Forall₂.sum_le_sum (List.forall₂_map_left_iff.2 (List.forall₂_map_right_iff.2
    (related.imp fun a b holds => ?_)))
  rw [flow a b holds]
  cases out : a.outOfFlow with
  | true => exact Int.le_refl 0
  | false => exact le a b holds out

theorem sumInFlow_congr {R : Item → Item → Prop} {items after : List Item}
    (related : List.Forall₂ R items after)
    (flow : ∀ a b, R a b → b.outOfFlow = a.outOfFlow)
    (same : ∀ a b, R a b → a.outOfFlow = false → f a = g b) :
    sumInFlow f items = sumInFlow g after := by
  refine Int.le_antisymm (sumInFlow_le related flow fun a b holds out =>
    Int.le_of_eq (same a b holds out)) ?_
  refine sumInFlow_le related.flip (fun b a holds => (flow a b holds).symm) fun b a holds out => ?_
  exact Int.le_of_eq (same a b holds ((flow a b holds).symm.trans out)).symm

theorem sumInFlow_of_unflexed {items others : List Item}
    (same : List.Forall₂ (fun item other => other.unflexed = item.unflexed) items others)
    (kept : ∀ item, f item = f item.unflexed) : sumInFlow f others = sumInFlow f items := by
  refine (sumInFlow_congr same (fun item other same => (congrArg Item.outOfFlow same :))
    fun item other same _ => ?_).symm
  rw [kept item, kept other, same]

theorem sumInFlow_mono {items : List Item}
    (le : ∀ item ∈ items, item.outOfFlow = false → f item ≤ g item) :
    sumInFlow f items ≤ sumInFlow g items :=
  sumInFlow_le (R := fun a b => b = a ∧ a ∈ items)
    (List.forall₂_same.2 fun _ member => ⟨rfl, member⟩) (fun _ _ same => congrArg _ same.1)
    fun a _ same out => same.1 ▸ le a same.2 out

theorem sumInFlow_nonneg {items : List Item}
    (nonneg : ∀ item ∈ items, item.outOfFlow = false → 0 ≤ f item) : 0 ≤ sumInFlow f items := by
  have zero : sumInFlow (fun _ => 0) items = 0 := by simp [sumInFlow]
  rw [← zero]
  exact sumInFlow_mono nonneg

theorem sumInFlow_sure {items : List Item} (frozen : ∀ item ∈ items, item.frozen = true) :
    sumInFlow Item.sure items = sumInFlow Item.target items :=
  Int.le_antisymm
    (sumInFlow_mono fun item member _ => Int.le_of_eq (if_pos (frozen item member)))
    (sumInFlow_mono fun item member _ => Int.le_of_eq (if_pos (frozen item member)).symm)

/-- No item counts more than all of them, if none counts less than nothing. -/
theorem le_sumInFlow {items : List Item} (nonneg : ∀ item ∈ items, item.outOfFlow = false → 0 ≤ f item)
    {item : Item} (member : item ∈ items) (flow : item.outOfFlow = false) :
    f item ≤ sumInFlow f items := by
  rw [sumInFlow_eq_sum_filter]
  refine List.single_le_sum (List.forall_mem_map.2 fun other among => ?_) _
    (List.mem_map_of_mem (List.mem_filter.2 ⟨member, by simp [flow]⟩))
  obtain ⟨inside, inFlow⟩ := List.mem_filter.1 among
  exact nonneg other inside (by simpa using inFlow)

theorem sumInFlow_neg (f : Item → Int) (items : List Item) :
    sumInFlow (fun item => -f item) items = -sumInFlow f items := by
  induction items with
  | nil => rfl
  | cons item rest ih =>
      rw [sumInFlow_cons, sumInFlow_cons, ih]
      split <;> omega

/-- What items take below zero is covered by their deficits. -/
theorem neg_sumInFlow_le {items : List Item}
    (least : ∀ item ∈ items, min item.base item.minMain ≤ f item) :
    -sumInFlow f items ≤ sumInFlow Item.deficit items := by
  rw [← sumInFlow_neg]
  refine sumInFlow_mono fun item member _ => ?_
  have := least item member
  simp only [Item.deficit]
  omega

theorem sumInFlow_sub (f g : Item → Int) (items : List Item) :
    sumInFlow (fun item => f item - g item) items = sumInFlow f items - sumInFlow g items := by
  induction items with
  | nil => rfl
  | cons item rest ih =>
      rw [sumInFlow_cons, sumInFlow_cons, sumInFlow_cons, ih]
      split <;> omega

end

section

variable {items : List Item}

/-- What counts the unfrozen items, all of them in flow. -/
theorem sum_open_eq {items : List Item} (f : Item → Int)
    (flow : ∀ item ∈ items, item.frozen = false → item.outOfFlow = false) :
    ((items.filter fun item => !item.frozen).map f).sum =
      sumInFlow (fun item => if item.frozen then 0 else f item) items := by
  induction items with
  | nil => rfl
  | cons item rest ih =>
      obtain ⟨here, flow⟩ := List.forall_mem_cons.1 flow
      rw [sumInFlow_cons, ← ih flow, List.filter_cons]
      cases open_ : item.frozen with
      | true => simp
      | false => simp [here open_]

theorem freeSpace_eq_foldl (room : Int) (items : List Item) :
    freeSpace room items =
      ((items.filter fun item => !item.outOfFlow).map fun item => -item.claim).foldl Pixel.add room := by
  simp only [freeSpace]
  induction items generalizing room with
  | nil => rfl
  | cons item rest ih =>
      rw [List.foldl_cons, ih, List.filter_cons]
      cases item.outOfFlow with
      | true => rfl
      | false => rfl

/-- **The free space is the room less what the items claim**, or below zero. -/
theorem freeSpace_cases {room : Int}
    (range : max 0 room + sumInFlow Item.deficit items ≤ 2147483647)
    (claims : ∀ item ∈ items, item.outOfFlow = false → min item.base item.minMain ≤ item.claim) :
    freeSpace room items = room - sumInFlow Item.claim items ∨
      room - sumInFlow Item.claim items ≤ freeSpace room items ∧ freeSpace room items < 0 := by
  have negated := sumInFlow_neg Item.claim items
  have most : sumInFlow (fun item => max 0 (-item.claim)) items ≤ sumInFlow Item.deficit items := by
    refine sumInFlow_mono fun item member out => ?_
    have := claims item member out
    simp only [Item.deficit]
    omega
  rw [sumInFlow_eq_sum_filter] at negated most
  rw [freeSpace_eq_foldl, Int.sub_eq_add_neg, ← negated]
  refine Pixel.foldl_add_cases (List.forall₂_same.2 fun _ _ => .inl rfl) ?_
  rw [List.map_map]
  show max 0 room + (List.map (fun item : Item => max 0 (-item.claim)) _).sum ≤ _
  omega

theorem sum_adjustments (flow : ∀ item ∈ items, item.frozen = false → item.outOfFlow = false) :
    ((items.filter fun item => !item.frozen).map
      fun item => item.hold item.target - item.target).sum =
        sumInFlow Item.held items - sumInFlow Item.target items := by
  rw [sum_open_eq _ flow, ← sumInFlow_sub]
  congr 1
  funext item
  simp only [Item.held]
  split <;> omega

/-- **The total adjustment is the difference that holding makes**, or both are below
zero. -/
theorem totalViolation_cases (flow : ∀ item ∈ items, item.frozen = false → item.outOfFlow = false)
    (raised : sumInFlow (fun item => if item.frozen then 0 else
      max 0 (item.hold item.target - item.target)) items ≤ 2147483647) :
    totalViolation items = sumInFlow Item.held items - sumInFlow Item.target items ∨
      sumInFlow Item.held items - sumInFlow Item.target items ≤ totalViolation items ∧
        totalViolation items < 0 := by
  have most : ((((items.filter fun item => !item.frozen).map
      fun item => item.hold item.target - item.target)).map (max 0)).sum ≤ 2147483647 := by
    rw [← sum_open_eq _ flow] at raised
    rwa [List.map_map]
  rw [totalViolation_eq, ← sum_adjustments flow, ← Int.zero_add (List.sum _)]
  refine Pixel.foldl_add_cases ?_ (by omega)
  rw [List.forall₂_map_left_iff, List.forall₂_map_right_iff]
  refine List.forall₂_same.2 fun item member => ?_
  have above := Int.le_trans (Pixel.le_sum_map_max (List.mem_map_of_mem member)) most
  simp only [Pixel.sub, Pixel.saturate]
  omega

/-! ## Shares of the free space -/

def openWeight (growing : Bool) (items : List Item) : Int :=
  ((items.filter fun item => !item.frozen).map fun item => max (item.weight growing) 0).sum

theorem openWeight_frozen {growing : Bool} {item : Item} (done : item.frozen = true)
    (rest : List Item) : openWeight growing (item :: rest) = openWeight growing rest := by
  rw [openWeight, List.filter_cons_of_neg (by simp [done])]
  rfl

theorem openWeight_open {growing : Bool} {item : Item} (open_ : item.frozen = false)
    (rest : List Item) :
    openWeight growing (item :: rest) = max (item.weight growing) 0 + openWeight growing rest := by
  rw [openWeight, List.filter_cons_of_pos (by simp [open_])]
  rfl

theorem openWeight_nonneg (growing : Bool) (items : List Item) : 0 ≤ openWeight growing items :=
  List.sum_nonneg (List.forall_mem_map.2 fun _ _ => Int.le_max_right _ 0)

/-- Divide a share among the unfrozen items as if the range had no ends. -/
def divide (growing : Bool) (share : Share) (items : List Item) : List Item :=
  Share.deal (fun item => !item.frozen) (Item.weight growing) (Item.receive growing) share items

theorem divide_frozen {growing : Bool} {share : Share} {item : Item} (done : item.frozen = true)
    (rest : List Item) :
    divide growing share (item :: rest) = item :: divide growing share rest := by
  rw [divide, Share.deal, if_neg (by simp [done])]
  rfl

theorem divide_open {growing : Bool} {share : Share} {item : Item} (open_ : item.frozen = false)
    (rest : List Item) :
    divide growing share (item :: rest) =
      item.receive growing (share.next (item.weight growing)).1 ::
        divide growing (share.next (item.weight growing)).2 rest := by
  rw [divide, Share.deal, if_pos (by simp [open_])]
  rfl

/-- An item takes exactly the share that it is given, if there is one for it. -/
def Exact (growing : Bool) (amount : Int) (item : Item) : Prop :=
  item.outOfFlow = false ∧ ∀ share, 0 ≤ share → share ≤ amount →
    (share = 0 ∨ 0 < item.weight growing) → item.give growing share = item.receive growing share

/-- Items that take exactly their shares divide the amount. -/
theorem handOut_eq_divide {growing : Bool} {share : Share} (sound : share.Sound)
    (total : 0 < share.total)
    (exact : ∀ item ∈ items, item.frozen = false → Exact growing share.amount item) :
    handOut growing share items = divide growing share items := by
  induction items generalizing share with
  | nil => rfl
  | cons item rest ih =>
      obtain ⟨here, later⟩ := List.forall_mem_cons.1 exact
      cases done : item.frozen with
      | true => rw [handOut_frozen done, divide_frozen done, ih sound total later]
      | false =>
          obtain ⟨-, given⟩ := here done
          obtain ⟨-, share_le, next_eq, next⟩ := sound.next total (item.weight growing)
          have some : (share.next (item.weight growing)).1 = 0 ∨ 0 < item.weight growing := by
            by_cases weighs : 0 < item.weight growing
            · exact .inr weighs
            · exact .inl (Share.next_weightless sound.toFair (by omega))
          rw [handOut_open done, divide_open done,
            given _ (sound.toFair.next (item.weight growing)).1 share_le some,
            ih next (by rw [next_eq]; exact total) (by rw [next_eq]; exact later)]

/-- **What is divided is taken or given**, up to the weight that has been reached. -/
theorem sumInFlow_divide {growing : Bool} {share : Share} (sound : share.Sound)
    (total : 0 < share.total)
    (flow : ∀ item ∈ items, item.frozen = false → item.outOfFlow = false) :
    sumInFlow Item.target (divide growing share items) =
      let dealt :=
        share.reached (min (share.weight + openWeight growing items) share.total) - share.dealt
      if growing then sumInFlow Item.claim items + dealt
      else sumInFlow Item.claim items - dealt := by
  -- For any share, as the items before this one have taken theirs.
  induction items generalizing share with
  | nil =>
      have weight := sound.weight total
      have all : min (share.weight + openWeight growing []) share.total = share.weight := by
        show min (share.weight + 0) share.total = _
        omega
      dsimp only
      rw [all, ← sound.dealt, Int.sub_self]
      cases growing <;> rfl
  | cons item rest ih =>
      obtain ⟨here, later⟩ := List.forall_mem_cons.1 flow
      cases done : item.frozen with
      | true =>
          have claim : item.claim = item.target := if_pos done
          rw [divide_frozen done, sumInFlow_cons, sumInFlow_cons, ih sound total later,
            openWeight_frozen done, claim]
          cases growing with
          | true => exact (Int.add_assoc _ _ _).symm
          | false => exact (Int.add_sub_assoc _ _ _).symm
      | false =>
          obtain ⟨share_eq, -, next_eq, next⟩ := sound.next total (item.weight growing)
          have claim : item.claim = item.base := if_neg (by simp [done])
          have given : (item.receive growing (share.next (item.weight growing)).1).target =
              if growing then item.base + (share.next (item.weight growing)).1
              else item.base - (share.next (item.weight growing)).1 := rfl
          have flow' : (item.receive growing (share.next (item.weight growing)).1).outOfFlow =
              false := here done
          have rests := ih next (by rw [next_eq]; exact total) later
          have weight := openWeight_nonneg growing rest
          have same : min (min (share.weight + max (item.weight growing) 0) share.total +
              openWeight growing rest) share.total =
                min (share.weight + (max (item.weight growing) 0 + openWeight growing rest))
                  share.total := by
            omega
          rw [divide_open done, sumInFlow_cons, sumInFlow_cons, rests, here done, flow', given,
            claim, openWeight_open done, share_eq, next_eq]
          simp only [same, Share.reached_with, Bool.false_eq_true, if_false]
          cases growing <;> simp only [if_true, Bool.false_eq_true, if_false] <;> omega

theorem factorSum_eq (growing : Bool)
    (flow : ∀ item ∈ items, item.frozen = false → item.outOfFlow = false) :
    factorSum growing items =
      sumInFlow (fun item => if item.frozen then 0 else (item.factor growing).raw) items := by
  rw [← sum_open_eq _ flow, factorSum]
  congr 2
  refine List.filter_congr fun item member => ?_
  cases open_ : item.frozen with
  | true => simp
  | false => simp [flow item member open_]

theorem le_factorSum (growing : Bool)
    (flow : ∀ item ∈ items, item.frozen = false → item.outOfFlow = false)
    (nonneg : ∀ item ∈ items, 0 ≤ (item.factor growing).raw) {item : Item} (member : item ∈ items)
    (open_ : item.frozen = false) : (item.factor growing).raw ≤ factorSum growing items := by
  have each : ∀ item ∈ items, item.outOfFlow = false →
      0 ≤ if item.frozen then 0 else (item.factor growing).raw := by
    intro item member _
    split
    · exact Int.le_refl 0
    · exact nonneg item member
  have above := le_sumInFlow each member (flow item member open_)
  rwa [← factorSum_eq growing flow, if_neg (by simp [open_])] at above

/-- Factors that sum to one hand out all of the free space. -/
theorem passSpace_of_whole {growing : Bool} (initial room : Int)
    (whole : 1024 ≤ factorSum growing items) :
    passSpace growing initial room items = freeSpace room items := by
  simp only [passSpace]
  rw [if_neg (by omega)]

theorem shareOf_total {growing : Bool} (free : Int)
    (flow : ∀ item ∈ items, item.frozen = false →
      item.outOfFlow = false ∧ 0 ≤ item.weight growing) :
    (shareOf growing free items).total = openWeight growing items := by
  have each : (items.filter fun item => !item.frozen).map (Item.weight growing) =
      (items.filter fun item => !item.frozen).map fun item => max (item.weight growing) 0 := by
    refine List.map_congr_left fun item member => ?_
    obtain ⟨inside, open_⟩ := List.mem_filter.1 member
    have := (flow item inside (by simpa using open_)).2
    omega
  rw [openWeight, ← each]
  cases growing with
  | false => rfl
  | true =>
      show factorSum true items = _
      have inFlow := fun item member open_ => (flow item member open_).1
      rw [factorSum_eq true inFlow, sum_open_eq _ inFlow]
      rfl

theorem sound_shareOf {growing : Bool} {free : Int}
    (range : 0 ≤ (shareOf growing free items).amount ∧
      (shareOf growing free items).amount ≤ 2147483647) :
    (shareOf growing free items).Sound ∧ (shareOf growing free items).weight = 0 ∧
      (shareOf growing free items).dealt = 0 := by
  have start : shareOf growing free items =
      { amount := (shareOf growing free items).amount
        total := (shareOf growing free items).total } := by
    cases growing <;> rfl
  rw [start]
  exact ⟨Share.sound_start _ range.1 range.2, rfl, rfl⟩

/-- **All of an amount is divided**, if there is any weight. -/
theorem sumInFlow_divide_shareOf {growing : Bool} {free : Int}
    (range : 0 ≤ (shareOf growing free items).amount ∧
      (shareOf growing free items).amount ≤ 2147483647)
    (weighs : 0 < (shareOf growing free items).total)
    (open_ : ∀ item ∈ items, item.frozen = false →
      item.outOfFlow = false ∧ 0 ≤ item.weight growing) :
    sumInFlow Item.target (divide growing (shareOf growing free items) items) =
      if growing then sumInFlow Item.claim items + (shareOf growing free items).amount
      else sumInFlow Item.claim items - (shareOf growing free items).amount := by
  obtain ⟨sound, weight, dealt⟩ := sound_shareOf range
  have total := shareOf_total free open_
  have all : min (0 + openWeight growing items) (shareOf growing free items).total =
      (shareOf growing free items).total := by omega
  rw [sumInFlow_divide sound weighs fun item member done => (open_ item member done).1, weight,
    dealt, all, Share.reached_total weighs, Int.sub_zero]

/-- **All of an amount is handed out** to items that take exactly their shares. -/
theorem sumInFlow_handOut_shareOf {growing : Bool} {free : Int}
    (range : 0 ≤ (shareOf growing free items).amount ∧
      (shareOf growing free items).amount ≤ 2147483647)
    (weighs : 0 < (shareOf growing free items).total)
    (open_ : ∀ item ∈ items, item.frozen = false →
      0 ≤ item.weight growing ∧ Exact growing (shareOf growing free items).amount item) :
    sumInFlow Item.target (handOut growing (shareOf growing free items) items) =
      if growing then sumInFlow Item.claim items + (shareOf growing free items).amount
      else sumInFlow Item.claim items - (shareOf growing free items).amount := by
  rw [handOut_eq_divide (sound_shareOf range).1 weighs fun item member done =>
    (open_ item member done).2]
  exact sumInFlow_divide_shareOf range weighs fun item member done =>
    ⟨(open_ item member done).2.1, (open_ item member done).1⟩

end

end Line

end FlexLayout
