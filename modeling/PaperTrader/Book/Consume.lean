/-
**`consume_asks_for_buy`: a dollar budget against an ask ladder.**

`consumeLoop` is the source's loop, `consumeAsksForBuy` the function around it. The loop's
accumulators are sums over what it takes at each level (`consumeLoop_eq_takes`), and
`consumeTakes` lists those per-level amounts. What is proved of them:

* `consumeTakes_isPurchase` — the takes are a purchase from the ladder (`IsPurchase`: between
  nothing and the level's size, nothing at a level with no positive price);
* `consumeTakes_cost_le` — the loop never spends more than its budget;
* `consumeTakes_greedy` — a positive level is taken whole before anything is taken later;
* `consumeTakes_cheapest` — on a ladder sorted by price no purchase of as many shares is cheaper;
* `consumeTakes_exhausts` — the loop stops within `1e-9` of its budget or takes every positive
  level whole;
* `consumeAsksForBuy_greedy` — all of it for `consume_asks_for_buy` itself.

The cheapest-fill argument is the exchange argument with a price floor `q`: against a purchase of
at least as many shares, the greedy fill costs at most the purchase less `q` per extra share,
where `q` is the price of the level the greedy fill stops at.
-/

import PaperTrader.Data.Types

namespace PaperTrader

/-! ### The source's loop -/

/-- The `for price, size in ob.asks` loop of `consume_asks_for_buy`, from `remaining` dollars and
the shares and cost so far; it returns the final `(remaining, shares, spent)`. -/
def consumeLoop : List (ℚ × ℚ) → ℚ → ℚ → ℚ → ℚ × ℚ × ℚ
  | [], remaining, shares, spent => (remaining, shares, spent)
  | (price, size) :: rest, remaining, shares, spent =>
    if remaining ≤ epsilon then (remaining, shares, spent)
    else if price ≤ 0 then consumeLoop rest remaining shares spent
    else
      let maxSharesHere := min size (remaining / price)
      if maxSharesHere ≤ 0 then consumeLoop rest remaining shares spent
      else
        let costHere := maxSharesHere * price
        consumeLoop rest (remaining - costHere) (shares + maxSharesHere) (spent + costHere)

/-- `consume_asks_for_buy(ob, usd_to_spend)`: the shares bought, their average price and the
dollars spent. -/
def consumeAsksForBuy (ob : OrderBook) (usdToSpend : ℚ) : ℚ × ℚ × ℚ :=
  let (_, shares, spent) := consumeLoop ob.asks usdToSpend 0 0
  (shares, if 0 < shares then spent / shares else 0, spent)

/-! ### Purchases from a ladder -/

/-- `amounts` buys from `levels` level by level: nothing, or a positive amount up to the level's
size from a level with a positive price. -/
inductive IsPurchase : List (ℚ × ℚ) → List ℚ → Prop
  | nil : IsPurchase [] []
  | cons {price size amount : ℚ} {levels : List (ℚ × ℚ)} {amounts : List ℚ} :
      0 ≤ amount → (0 < amount → amount ≤ size ∧ 0 < price) → IsPurchase levels amounts →
      IsPurchase ((price, size) :: levels) (amount :: amounts)

/-- What `amounts` costs at the levels' prices. -/
def purchaseCost : List (ℚ × ℚ) → List ℚ → ℚ
  | (price, _) :: levels, amount :: amounts => amount * price + purchaseCost levels amounts
  | _, _ => 0

@[simp] theorem purchaseCost_cons (price size amount : ℚ) (levels : List (ℚ × ℚ))
    (amounts : List ℚ) :
    purchaseCost ((price, size) :: levels) (amount :: amounts) =
      amount * price + purchaseCost levels amounts := rfl

/-- Nothing at every level. -/
def nothingFrom (levels : List (ℚ × ℚ)) : List ℚ := levels.map fun _ => 0

@[simp] theorem nothingFrom_nil : nothingFrom [] = [] := rfl

@[simp] theorem nothingFrom_cons (level : ℚ × ℚ) (levels : List (ℚ × ℚ)) :
    nothingFrom (level :: levels) = 0 :: nothingFrom levels := rfl

@[simp] theorem sum_nothingFrom (levels : List (ℚ × ℚ)) : (nothingFrom levels).sum = 0 := by
  induction levels <;> simp [*]

@[simp] theorem purchaseCost_nothingFrom (levels : List (ℚ × ℚ)) :
    purchaseCost levels (nothingFrom levels) = 0 := by
  induction levels with
  | nil => rfl
  | cons level levels ih =>
    obtain ⟨price, size⟩ := level
    simp [ih]

/-- Nothing from a level, then a purchase from the rest. -/
theorem IsPurchase.zero_cons {level : ℚ × ℚ} {levels : List (ℚ × ℚ)} {amounts : List ℚ}
    (tail : IsPurchase levels amounts) : IsPurchase (level :: levels) (0 :: amounts) :=
  .cons le_rfl (fun nothing => absurd nothing (lt_irrefl 0)) tail

theorem isPurchase_nothingFrom (levels : List (ℚ × ℚ)) :
    IsPurchase levels (nothingFrom levels) := by
  induction levels with
  | nil => exact .nil
  | cons level levels ih => exact ih.zero_cons

theorem mem_zip_nothingFrom {levels others : List (ℚ × ℚ)} {pair : (ℚ × ℚ) × ℚ}
    (member : pair ∈ levels.zip (nothingFrom others)) : pair.2 = 0 := by
  obtain ⟨_, member⟩ := List.of_mem_zip member
  simp only [nothingFrom, List.mem_map] at member
  obtain ⟨_, _, same⟩ := member
  exact same.symm

namespace IsPurchase

variable {levels : List (ℚ × ℚ)} {amounts : List ℚ}

theorem sum_nonneg (purchase : IsPurchase levels amounts) : 0 ≤ amounts.sum := by
  induction purchase with
  | nil => rfl
  | cons amount_nonneg _ _ ih => simp only [List.sum_cons]; linarith

/-- **A purchase costs at least `c` a share** when every level it buys from is priced `≥ c`. -/
theorem le_purchaseCost (purchase : IsPurchase levels amounts) {c : ℚ}
    (floor : ∀ pair ∈ levels.zip amounts, 0 < pair.2 → c ≤ pair.1.1) :
    c * amounts.sum ≤ purchaseCost levels amounts := by
  induction purchase with
  | nil => simp [purchaseCost]
  | @cons price size amount levels amounts amount_nonneg _ _ ih =>
    have head : c * amount ≤ amount * price := by
      rcases amount_nonneg.lt_or_eq with positive | zero
      · linarith [mul_le_mul_of_nonneg_left (floor _ (List.mem_cons_self _ _) positive) positive.le]
      · simp [← zero]
    have rest := ih fun pair member => floor pair (List.mem_cons_of_mem _ member)
    simp only [List.sum_cons, purchaseCost_cons]
    linarith

/-- **A purchase costs more than `c` a share** when every level it buys from is priced `> c`. -/
theorem lt_purchaseCost (purchase : IsPurchase levels amounts) {c : ℚ}
    (floor : ∀ pair ∈ levels.zip amounts, 0 < pair.2 → c < pair.1.1) (some : 0 < amounts.sum) :
    c * amounts.sum < purchaseCost levels amounts := by
  induction purchase with
  | nil => simp at some
  | @cons price size amount levels amounts amount_nonneg _ tail ih =>
    have later := fun pair (member : pair ∈ levels.zip amounts) =>
      floor pair (List.mem_cons_of_mem _ member)
    simp only [List.sum_cons, purchaseCost_cons] at some ⊢
    rcases amount_nonneg.lt_or_eq with positive | zero
    · have head := floor _ (List.mem_cons_self _ _) positive
      have rest := tail.le_purchaseCost fun pair member taken => (later pair member taken).le
      linarith [mul_lt_mul_of_pos_left head positive]
    · subst zero
      have := ih later (by linarith)
      linarith

/-- **A purchase costs at most `c` a share** when every level it buys from is priced `≤ c`. -/
theorem purchaseCost_le (purchase : IsPurchase levels amounts) {c : ℚ}
    (ceiling : ∀ pair ∈ levels.zip amounts, 0 < pair.2 → pair.1.1 ≤ c) :
    purchaseCost levels amounts ≤ c * amounts.sum := by
  induction purchase with
  | nil => simp [purchaseCost]
  | @cons price size amount levels amounts amount_nonneg _ _ ih =>
    have head : amount * price ≤ c * amount := by
      rcases amount_nonneg.lt_or_eq with positive | zero
      · linarith [mul_le_mul_of_nonneg_left (ceiling _ (List.mem_cons_self _ _) positive) positive.le]
      · simp [← zero]
    have rest := ih fun pair member => ceiling pair (List.mem_cons_of_mem _ member)
    simp only [List.sum_cons, purchaseCost_cons]
    linarith

/-- **A purchase costs less than `c` a share** when every level it buys from is priced `< c`. -/
theorem purchaseCost_lt (purchase : IsPurchase levels amounts) {c : ℚ}
    (ceiling : ∀ pair ∈ levels.zip amounts, 0 < pair.2 → pair.1.1 < c) (some : 0 < amounts.sum) :
    purchaseCost levels amounts < c * amounts.sum := by
  induction purchase with
  | nil => simp at some
  | @cons price size amount levels amounts amount_nonneg _ tail ih =>
    have later := fun pair (member : pair ∈ levels.zip amounts) =>
      ceiling pair (List.mem_cons_of_mem _ member)
    simp only [List.sum_cons, purchaseCost_cons] at some ⊢
    rcases amount_nonneg.lt_or_eq with positive | zero
    · have head := ceiling _ (List.mem_cons_self _ _) positive
      have rest := tail.purchaseCost_le fun pair member taken => (later pair member taken).le
      linarith [mul_lt_mul_of_pos_left head positive]
    · subst zero
      have := ih later (by linarith)
      linarith

/-- Every level a purchase buys from has a positive price. -/
theorem price_pos (purchase : IsPurchase levels amounts) :
    ∀ pair ∈ levels.zip amounts, 0 < pair.2 → 0 < pair.1.1 := by
  induction purchase with
  | nil => simp
  | cons _ bought _ ih =>
    intro pair member taken
    rcases List.mem_cons.mp member with rfl | member
    · exact (bought taken).2
    · exact ih pair member taken

theorem purchaseCost_nonneg (purchase : IsPurchase levels amounts) :
    0 ≤ purchaseCost levels amounts := by
  simpa using purchase.le_purchaseCost (c := 0) fun pair member taken =>
    (purchase.price_pos pair member taken).le

/-- A purchase of no shares costs nothing. -/
theorem purchaseCost_eq_zero (purchase : IsPurchase levels amounts) (zero : amounts.sum = 0) :
    purchaseCost levels amounts = 0 := by
  induction purchase with
  | nil => rfl
  | @cons price size amount levels amounts amount_nonneg _ tail ih =>
    simp only [List.sum_cons] at zero
    have rest : amounts.sum = 0 := le_antisymm (by linarith) tail.sum_nonneg
    have head : amount = 0 := le_antisymm (by linarith [tail.sum_nonneg]) amount_nonneg
    simp [head, ih rest]

/-- **A purchase buys shares exactly when it spends dollars.** -/
theorem sum_pos_iff (purchase : IsPurchase levels amounts) :
    0 < amounts.sum ↔ 0 < purchaseCost levels amounts := by
  constructor
  · intro some
    simpa using purchase.lt_purchaseCost (c := 0) (purchase.price_pos) some
  · intro spends
    by_contra none
    have zero := le_antisymm (not_lt.mp none) purchase.sum_nonneg
    rw [purchase.purchaseCost_eq_zero zero] at spends
    exact lt_irrefl 0 spends

end IsPurchase

/-! ### What the loop takes at each level -/

/-- The shares the loop takes at each level, from `remaining` dollars: `0` where it skips a level
and at every level after it stops. -/
def consumeTakes : List (ℚ × ℚ) → ℚ → List ℚ
  | [], _ => []
  | (price, size) :: rest, remaining =>
    if remaining ≤ epsilon then 0 :: nothingFrom rest
    else if price ≤ 0 then 0 :: consumeTakes rest remaining
    else
      let maxSharesHere := min size (remaining / price)
      if maxSharesHere ≤ 0 then 0 :: consumeTakes rest remaining
      else maxSharesHere :: consumeTakes rest (remaining - maxSharesHere * price)

theorem consumeTakes_of_le_epsilon (levels : List (ℚ × ℚ)) {remaining : ℚ}
    (done : remaining ≤ epsilon) : consumeTakes levels remaining = nothingFrom levels := by
  cases levels with
  | nil => rfl
  | cons level rest =>
    obtain ⟨price, size⟩ := level
    simp [consumeTakes, done]

/-- **The loop's accumulators are sums over its takes.** -/
theorem consumeLoop_eq_takes (levels : List (ℚ × ℚ)) (remaining shares spent : ℚ) :
    consumeLoop levels remaining shares spent =
      (remaining - purchaseCost levels (consumeTakes levels remaining),
        shares + (consumeTakes levels remaining).sum,
        spent + purchaseCost levels (consumeTakes levels remaining)) := by
  induction levels generalizing remaining shares spent with
  | nil => simp [consumeLoop, consumeTakes, purchaseCost]
  | cons level rest ih =>
    obtain ⟨price, size⟩ := level
    simp only [consumeLoop, consumeTakes]
    split_ifs <;> simp [ih]
    exact ⟨by ring, by ring, by ring⟩

/-- `consume_asks_for_buy` in terms of the takes: their sum, their cost and its average. -/
theorem consumeAsksForBuy_eq (ob : OrderBook) (usd : ℚ) :
    consumeAsksForBuy ob usd =
      ((consumeTakes ob.asks usd).sum,
        if 0 < (consumeTakes ob.asks usd).sum then
          purchaseCost ob.asks (consumeTakes ob.asks usd) / (consumeTakes ob.asks usd).sum
        else 0,
        purchaseCost ob.asks (consumeTakes ob.asks usd)) := by
  simp [consumeAsksForBuy, consumeLoop_eq_takes]

section Level

variable {price size remaining : ℚ}

/-- At a positive price the loop never takes more than the remaining dollars buy. -/
theorem take_mul_le (positive : 0 < price) : min size (remaining / price) * price ≤ remaining :=
  (le_div_iff₀ positive).mp (min_le_right _ _)

/-- A level the loop takes less than whole uses up the remaining dollars. -/
theorem remaining_eq_zero_of_take_ne (positive : 0 < price)
    (short : min size (remaining / price) ≠ size) :
    remaining - min size (remaining / price) * price = 0 := by
  rcases min_choice size (remaining / price) with same | same
  · exact absurd same short
  · rw [same, div_mul_cancel₀ _ positive.ne', sub_self]

/-- Where the loop takes nothing from a positive level with dollars left, the level is empty. -/
theorem size_nonpos_of_take_nonpos (positive : 0 < price) (funds : epsilon < remaining)
    (nothing : min size (remaining / price) ≤ 0) : size ≤ 0 := by
  have : 0 < remaining / price := div_pos (lt_trans epsilon_pos funds) positive
  rcases min_le_iff.mp nothing with small | small
  · exact small
  · exact absurd small (not_le.mpr this)

end Level

/-- **What the loop does at a level**: it has stopped, and takes nothing from here on; it skips a
level with no positive price or no positive size; or it takes a positive `min size
(remaining / price)` at a positive price and goes on with the dollars left. -/
theorem consumeTakes_cons_cases (price size remaining : ℚ) (rest : List (ℚ × ℚ)) :
    (remaining ≤ epsilon ∧ consumeTakes ((price, size) :: rest) remaining = 0 :: nothingFrom rest) ∨
      (epsilon < remaining ∧ (price ≤ 0 ∨ size ≤ 0) ∧
        consumeTakes ((price, size) :: rest) remaining = 0 :: consumeTakes rest remaining) ∨
      (epsilon < remaining ∧ 0 < price ∧ 0 < min size (remaining / price) ∧
        consumeTakes ((price, size) :: rest) remaining = min size (remaining / price) ::
          consumeTakes rest (remaining - min size (remaining / price) * price)) := by
  simp only [consumeTakes]
  split_ifs with done free empty
  · exact .inl ⟨done, rfl⟩
  · exact .inr (.inl ⟨not_le.mp done, .inl free, rfl⟩)
  · exact .inr (.inl ⟨not_le.mp done,
      .inr (size_nonpos_of_take_nonpos (not_le.mp free) (not_le.mp done) empty), rfl⟩)
  · exact .inr (.inr ⟨not_le.mp done, not_le.mp free, not_le.mp empty, rfl⟩)

/-- **The takes are a purchase from the ladder.** -/
theorem consumeTakes_isPurchase (levels : List (ℚ × ℚ)) (remaining : ℚ) :
    IsPurchase levels (consumeTakes levels remaining) := by
  induction levels generalizing remaining with
  | nil => exact .nil
  | cons level rest ih =>
    obtain ⟨price, size⟩ := level
    rcases consumeTakes_cons_cases price size remaining rest with
      ⟨-, stop⟩ | ⟨-, -, skip⟩ | ⟨-, positive, take, step⟩
    · exact stop ▸ (isPurchase_nothingFrom rest).zero_cons
    · exact skip ▸ (ih remaining).zero_cons
    · exact step ▸ .cons take.le (fun _ => ⟨min_le_left _ _, positive⟩) (ih _)

/-- **The loop never spends more than its budget.** -/
theorem consumeTakes_cost_le (levels : List (ℚ × ℚ)) {remaining : ℚ} (budget : 0 ≤ remaining) :
    purchaseCost levels (consumeTakes levels remaining) ≤ remaining := by
  induction levels generalizing remaining with
  | nil => exact budget
  | cons level rest ih =>
    obtain ⟨price, size⟩ := level
    rcases consumeTakes_cons_cases price size remaining rest with
      ⟨-, stop⟩ | ⟨-, -, skip⟩ | ⟨-, positive, -, step⟩
    · simpa [stop] using budget
    · simpa [skip] using ih budget
    · have spend : min size (remaining / price) * price ≤ remaining := take_mul_le positive
      have := ih (sub_nonneg.mpr spend)
      rw [step, purchaseCost_cons]
      linarith

/-- **Greedy:** a level with a positive price and size is taken whole before anything is taken
from a later level. -/
theorem consumeTakes_greedy (levels : List (ℚ × ℚ)) (remaining : ℚ) :
    (levels.zip (consumeTakes levels remaining)).Pairwise fun earlier later =>
      0 < later.2 → 0 < earlier.1.1 → 0 < earlier.1.2 → earlier.2 = earlier.1.2 := by
  induction levels generalizing remaining with
  | nil => simp
  | cons level rest ih =>
    obtain ⟨price, size⟩ := level
    have stopped : ∀ later ∈ rest.zip (nothingFrom rest), 0 < later.2 → False :=
      fun later member taken => by simp [mem_zip_nothingFrom member] at taken
    have rest_stopped := consumeTakes_of_le_epsilon rest epsilon_pos.le
    rcases consumeTakes_cons_cases price size remaining rest with
      ⟨-, stop⟩ | ⟨-, empty, skip⟩ | ⟨-, positive, -, step⟩
    · rw [stop]
      refine List.Pairwise.cons (fun later member taken => (stopped later member taken).elim) ?_
      simpa [rest_stopped] using ih 0
    · rw [skip]
      refine List.Pairwise.cons (fun _ _ _ priced filled => ?_) (ih _)
      rcases empty with free | empty
      · exact absurd priced (not_lt.mpr free)
      · exact absurd filled (not_lt.mpr empty)
    · rw [step]
      refine List.Pairwise.cons (fun later member taken _ _ => ?_) (ih _)
      by_contra short
      rw [remaining_eq_zero_of_take_ne positive short, rest_stopped] at member
      exact (stopped later member taken).elim

/-- **The loop stops within `1e-9` of its budget, or takes every positive level whole.** -/
theorem consumeTakes_exhausts (levels : List (ℚ × ℚ)) (remaining : ℚ) :
    remaining - purchaseCost levels (consumeTakes levels remaining) ≤ epsilon ∨
      ∀ pair ∈ levels.zip (consumeTakes levels remaining),
        0 < pair.1.1 → 0 < pair.1.2 → pair.2 = pair.1.2 := by
  induction levels generalizing remaining with
  | nil => simp
  | cons level rest ih =>
    obtain ⟨price, size⟩ := level
    rcases consumeTakes_cons_cases price size remaining rest with
      ⟨done, stop⟩ | ⟨-, empty, skip⟩ | ⟨-, positive, -, step⟩
    · left
      simpa [stop] using done
    · rw [skip]
      refine (ih remaining).imp (by simp) fun whole pair member => ?_
      rcases List.mem_cons.mp member with rfl | member
      · rcases empty with free | empty
        · exact fun priced => absurd priced (not_lt.mpr free)
        · exact fun _ filled => absurd filled (not_lt.mpr empty)
      · exact whole pair member
    · rw [step]
      by_cases short : min size (remaining / price) ≠ size
      · left
        have zero := remaining_eq_zero_of_take_ne positive short
        rw [zero, consumeTakes_of_le_epsilon rest epsilon_pos.le]
        simp only [purchaseCost_cons, purchaseCost_nothingFrom]
        linarith [epsilon_pos]
      · refine (ih (remaining - min size (remaining / price) * price)).imp (fun close => ?_)
          fun whole pair member => ?_
        · simp only [purchaseCost_cons]
          linarith
        · rcases List.mem_cons.mp member with rfl | member
          · exact fun _ _ => not_not.mp short
          · exact whole pair member

/-- **Cheapest first:** on a ladder sorted by price, against a purchase of at least as many
shares, the takes cost at most the purchase less `q` per extra share, for any `q` below every
positive price. -/
theorem consumeTakes_cheapest {levels : List (ℚ × ℚ)} {amounts : List ℚ}
    (purchase : IsPurchase levels amounts) (sorted : levels.Pairwise fun a b => a.1 ≤ b.1)
    (remaining q : ℚ) (floor : ∀ level ∈ levels, 0 < level.1 → q ≤ level.1)
    (more : (consumeTakes levels remaining).sum ≤ amounts.sum) :
    purchaseCost levels (consumeTakes levels remaining) +
        q * (amounts.sum - (consumeTakes levels remaining).sum) ≤
      purchaseCost levels amounts := by
  induction purchase generalizing remaining q with
  | nil => simp [consumeTakes, purchaseCost]
  | @cons price size amount levels amounts amount_nonneg bought tail ih =>
    obtain ⟨later, sorted⟩ := List.pairwise_cons.mp sorted
    have floor_rest := fun level member => floor level (List.mem_cons_of_mem _ member)
    have cheaper : ∀ pair ∈ levels.zip amounts, 0 < pair.2 → price ≤ pair.1.1 :=
      fun pair member taken => later _ (List.of_mem_zip member).1
    have whole_cost : q * (amount + amounts.sum) ≤ purchaseCost ((price, size) :: levels)
        (amount :: amounts) := by
      have := (IsPurchase.cons amount_nonneg bought tail).le_purchaseCost (c := q)
        fun pair member taken => floor _ (List.of_mem_zip member).1
          ((IsPurchase.cons amount_nonneg bought tail).price_pos pair member taken)
      simpa using this
    have idle : amount = 0 ∨ 0 < amount := amount_nonneg.eq_or_lt.imp Eq.symm id
    rcases consumeTakes_cons_cases price size remaining levels with
      ⟨-, stop⟩ | ⟨-, empty, skip⟩ | ⟨-, positive, take, step⟩
    · rw [stop] at more ⊢
      simpa using whole_cost
    · have zero : amount = 0 := idle.resolve_right fun taken => by
        obtain ⟨le_size, priced⟩ := bought taken
        rcases empty with free | empty <;> linarith
      subst zero
      simp only [skip, List.sum_cons, zero_add, purchaseCost_cons, zero_mul] at more ⊢
      exact ih sorted remaining q floor_rest more
    · have q_le : q ≤ price := floor (price, size) (List.mem_cons_self _ _) positive
      simp only [step, List.sum_cons, purchaseCost_cons] at more ⊢
      by_cases short : min size (remaining / price) ≠ size
      · rw [remaining_eq_zero_of_take_ne positive short,
          consumeTakes_of_le_epsilon levels epsilon_pos.le] at more ⊢
        have rest := tail.le_purchaseCost cheaper
        simp only [sum_nothingFrom, purchaseCost_nothingFrom, add_zero] at more ⊢
        linarith only [rest, mul_nonneg (sub_nonneg.mpr q_le) (sub_nonneg.mpr more)]
      · rw [not_not] at short
        rw [short] at more ⊢
        have amount_le : amount ≤ size := by
          rcases idle with zero | taken
          · rw [zero, ← short]
            exact take.le
          · exact (bought taken).1
        have rest := ih sorted (remaining - size * price) price
          (fun level member _ => later level member) (by linarith only [more, amount_le])
        linarith only [rest, mul_nonneg (sub_nonneg.mpr q_le) (sub_nonneg.mpr more)]

/-! ### `consume_asks_for_buy` -/

section Result

variable (ob : OrderBook) (usd : ℚ)

theorem consumeAsksForBuy_shares_nonneg : 0 ≤ (consumeAsksForBuy ob usd).1 := by
  simpa [consumeAsksForBuy_eq] using (consumeTakes_isPurchase ob.asks usd).sum_nonneg

theorem consumeAsksForBuy_spent_nonneg : 0 ≤ (consumeAsksForBuy ob usd).2.2 := by
  simpa [consumeAsksForBuy_eq] using (consumeTakes_isPurchase ob.asks usd).purchaseCost_nonneg

theorem consumeAsksForBuy_spent_le {usd : ℚ} (budget : 0 ≤ usd) :
    (consumeAsksForBuy ob usd).2.2 ≤ usd := by
  simpa [consumeAsksForBuy_eq] using consumeTakes_cost_le ob.asks budget

theorem consumeAsksForBuy_shares_pos_iff :
    0 < (consumeAsksForBuy ob usd).1 ↔ 0 < (consumeAsksForBuy ob usd).2.2 := by
  simpa [consumeAsksForBuy_eq] using (consumeTakes_isPurchase ob.asks usd).sum_pos_iff

theorem consumeAsksForBuy_avg (some : 0 < (consumeAsksForBuy ob usd).1) :
    (consumeAsksForBuy ob usd).2.1 = (consumeAsksForBuy ob usd).2.2 / (consumeAsksForBuy ob usd).1 := by
  simp only [consumeAsksForBuy_eq] at some ⊢
  simp [some]

/-- **On a ladder sorted cheapest first, a buy pays at least the best ask a share.** -/
theorem consumeAsksForBuy_bestAsk_mul_le {ask : ℚ} (sorted : ob.asks.Pairwise fun a b => a.1 ≤ b.1)
    (best : ob.bestAsk = some ask) :
    ask * (consumeAsksForBuy ob usd).1 ≤ (consumeAsksForBuy ob usd).2.2 := by
  obtain ⟨level, rest, asks, rfl⟩ : ∃ level rest, ob.asks = level :: rest ∧ level.1 = ask := by
    unfold OrderBook.bestAsk at best
    cases listed : ob.asks with
    | nil => simp [listed] at best
    | cons level rest => exact ⟨level, rest, rfl, by simpa [listed] using best⟩
  rw [consumeAsksForBuy_eq]
  refine (consumeTakes_isPurchase ob.asks usd).le_purchaseCost fun pair member _ => ?_
  have listed := (List.of_mem_zip member).1
  rw [asks] at listed sorted
  rcases List.mem_cons.mp listed with head | later
  · rw [head]
  · exact List.rel_of_pairwise_cons sorted later

end Result

/-- **`consume_asks_for_buy` is the greedy cheapest-first fill.** On an ask ladder of finite
prices and sizes (`OrderBook`; a `nan` from the feed is outside this result) sorted by price
and a budget `usd ≥ 0`: it spends between nothing and the budget; it buys shares exactly when it
spends, at the average `spent / shares`; what it takes level by level is a purchase whose shares
and cost are its result, and it takes every positive level whole before anything later; no
purchase of as many shares is cheaper; the average lies between the lowest and the highest price
it buys at; and it stops within `1e-9` of the budget or takes every positive level whole. -/
theorem consumeAsksForBuy_greedy (ob : OrderBook) (usd shares avg spent : ℚ)
    (sorted : ob.asks.Pairwise fun a b => a.1 ≤ b.1) (budget : 0 ≤ usd)
    (result : consumeAsksForBuy ob usd = (shares, avg, spent)) :
    (0 ≤ spent ∧ spent ≤ usd) ∧
    ((0 < shares ↔ 0 < spent) ∧ (0 < shares → avg = spent / shares)) ∧
    (IsPurchase ob.asks (consumeTakes ob.asks usd) ∧ shares = (consumeTakes ob.asks usd).sum ∧
      spent = purchaseCost ob.asks (consumeTakes ob.asks usd)) ∧
    (ob.asks.zip (consumeTakes ob.asks usd)).Pairwise (fun earlier later =>
      0 < later.2 → 0 < earlier.1.1 → 0 < earlier.1.2 → earlier.2 = earlier.1.2) ∧
    (∀ amounts, IsPurchase ob.asks amounts → amounts.sum = shares →
      spent ≤ purchaseCost ob.asks amounts) ∧
    (0 < shares →
      (∃ pair ∈ ob.asks.zip (consumeTakes ob.asks usd), 0 < pair.2 ∧ pair.1.1 ≤ avg) ∧
      (∃ pair ∈ ob.asks.zip (consumeTakes ob.asks usd), 0 < pair.2 ∧ avg ≤ pair.1.1)) ∧
    (usd - spent ≤ epsilon ∨ ∀ pair ∈ ob.asks.zip (consumeTakes ob.asks usd),
      0 < pair.1.1 → 0 < pair.1.2 → pair.2 = pair.1.2) := by
  have purchase := consumeTakes_isPurchase ob.asks usd
  have fields := result ▸ consumeAsksForBuy_eq ob usd
  simp only [Prod.mk.injEq] at fields
  obtain ⟨rfl, avgEq, rfl⟩ := fields
  have average : 0 < (consumeTakes ob.asks usd).sum →
      avg = purchaseCost ob.asks (consumeTakes ob.asks usd) / (consumeTakes ob.asks usd).sum :=
    fun some => by rw [avgEq, if_pos some]
  refine ⟨⟨purchase.purchaseCost_nonneg, consumeTakes_cost_le ob.asks budget⟩,
    ⟨purchase.sum_pos_iff, average⟩, ⟨purchase, rfl, rfl⟩, consumeTakes_greedy ob.asks usd,
    fun amounts other same => ?_, fun some => ⟨?_, ?_⟩, consumeTakes_exhausts ob.asks usd⟩
  · have := consumeTakes_cheapest other sorted usd 0 (fun _ _ positive => positive.le)
      same.symm.le
    simpa [same] using this
  · by_contra above
    push_neg at above
    have := purchase.lt_purchaseCost above some
    rw [average some, div_mul_cancel₀ _ some.ne'] at this
    exact lt_irrefl _ this
  · by_contra below
    push_neg at below
    have := purchase.purchaseCost_lt below some
    rw [average some, div_mul_cancel₀ _ some.ne'] at this
    exact lt_irrefl _ this

/-- The spec's example: `$1.10` against `[(0.10, 5), (0.12, 10)]` buys `10` shares at `0.11`, and
no purchase of `10` shares from that ladder costs less than `$1.10`. -/
theorem consumeAsksForBuy_greedy_spec_example :
    ([((0.10 : ℚ), (5 : ℚ)), (0.12, 10)].Pairwise fun a b => a.1 ≤ b.1) ∧ (0 : ℚ) ≤ 1.10 ∧
      consumeAsksForBuy { asks := [(0.10, 5), (0.12, 10)] } 1.10 = (10, 0.11, 1.10) ∧
      ∀ amounts, IsPurchase [(0.10, 5), (0.12, 10)] amounts → amounts.sum = 10 →
        (1.10 : ℚ) ≤ purchaseCost [(0.10, 5), (0.12, 10)] amounts := by
  have sorted : [((0.10 : ℚ), (5 : ℚ)), (0.12, 10)].Pairwise fun a b => a.1 ≤ b.1 := by
    with_unfolding_all decide
  have budget : (0 : ℚ) ≤ 1.10 := by norm_num
  have result : consumeAsksForBuy { asks := [(0.10, 5), (0.12, 10)] } 1.10 = (10, 0.11, 1.10) := by
    with_unfolding_all decide
  exact ⟨sorted, budget, result,
    (consumeAsksForBuy_greedy { asks := [(0.10, 5), (0.12, 10)] } 1.10 10 0.11 1.10 sorted budget
      result).2.2.2.2.1⟩

end PaperTrader
