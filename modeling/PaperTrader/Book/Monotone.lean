/-
**`consume_asks_for_buy` against a larger budget.**

Two runs of the loop over one ladder, from budgets `r₁ ≤ r₂`, make the same decision at every
level until the smaller run is used up (`consumeTakes_cons_cases` for both). From that:

* `consumeTakes_sum_mono` — the smaller budget takes no more shares;
* `consumeTakes_cost_mono` — and spends no more, by the exchange argument of
  `consumeTakes_cheapest`;
* `consumeTakes_average_mono` — on a ladder sorted by price its average is no higher: the larger
  run's extra shares cost at least the price where the smaller run stopped;
* `consumeAsksForBuy_monotone` — all three for `consume_asks_for_buy`: slippage never improves
  with the size of the order.
-/

import PaperTrader.Book.Consume

namespace PaperTrader

section Level

variable {price size r₁ r₂ : ℚ}

/-- The dollars a positive level leaves, `max (r - size · price) 0`, grow with the budget. -/
theorem remaining_mono (positive : 0 < price) (larger : r₁ ≤ r₂) :
    r₁ - min size (r₁ / price) * price ≤ r₂ - min size (r₂ / price) * price := by
  simp only [min_mul_of_nonneg _ _ positive.le, div_mul_cancel₀ _ positive.ne']
  rcases le_total (size * price) r₁ with below | above
  · rw [min_eq_left below, min_eq_left (below.trans larger)]
    linarith
  · rw [min_eq_right above]
    linarith [min_le_right (size * price) r₂]

/-- The shares a positive level gives grow with the budget. -/
theorem take_mono (positive : 0 < price) (larger : r₁ ≤ r₂) :
    min size (r₁ / price) ≤ min size (r₂ / price) :=
  min_le_min le_rfl (div_le_div_of_nonneg_right larger positive.le)

end Level

/-- **A smaller budget takes no more shares.** -/
theorem consumeTakes_sum_mono (levels : List (ℚ × ℚ)) {r₁ r₂ : ℚ} (larger : r₁ ≤ r₂) :
    (consumeTakes levels r₁).sum ≤ (consumeTakes levels r₂).sum := by
  induction levels generalizing r₁ r₂ with
  | nil => rfl
  | cons level rest ih =>
    obtain ⟨price, size⟩ := level
    rcases consumeTakes_cons_cases price size r₁ rest with
      ⟨-, stop₁⟩ | ⟨funds₁, empty₁, skip₁⟩ | ⟨funds₁, positive₁, take₁, step₁⟩
    · simpa [stop₁] using (consumeTakes_isPurchase _ r₂).sum_nonneg
    · rcases consumeTakes_cons_cases price size r₂ rest with
        ⟨done₂, -⟩ | ⟨-, -, skip₂⟩ | ⟨-, positive₂, take₂, -⟩
      · linarith
      · simpa [skip₁, skip₂] using ih larger
      · exact absurd empty₁ (by push_neg; exact ⟨positive₂, (lt_min_iff.mp take₂).1⟩)
    · rcases consumeTakes_cons_cases price size r₂ rest with
        ⟨done₂, -⟩ | ⟨-, empty₂, -⟩ | ⟨-, -, -, step₂⟩
      · linarith
      · exact absurd empty₂ (by push_neg; exact ⟨positive₁, (lt_min_iff.mp take₁).1⟩)
      · simp only [step₁, step₂, List.sum_cons]
        exact add_le_add (take_mono positive₁ larger) (ih (remaining_mono positive₁ larger))

section Sorted

variable {levels : List (ℚ × ℚ)} (sorted : levels.Pairwise fun a b => a.1 ≤ b.1)
include sorted

/-- **A smaller budget spends no more.** -/
theorem consumeTakes_cost_mono {r₁ r₂ : ℚ} (larger : r₁ ≤ r₂) :
    purchaseCost levels (consumeTakes levels r₁) ≤ purchaseCost levels (consumeTakes levels r₂) := by
  have := consumeTakes_cheapest (consumeTakes_isPurchase levels r₂) sorted r₁ 0
    (fun _ _ positive => positive.le) (consumeTakes_sum_mono levels larger)
  simpa using this

/-- **A smaller budget buys at an average no higher**, cross-multiplied so that it also holds
where a run buys nothing: `cost₁ · shares₂ ≤ cost₂ · shares₁`. -/
theorem consumeTakes_average_mono {r₁ r₂ : ℚ} (larger : r₁ ≤ r₂) :
    purchaseCost levels (consumeTakes levels r₁) * (consumeTakes levels r₂).sum ≤
      purchaseCost levels (consumeTakes levels r₂) * (consumeTakes levels r₁).sum := by
  induction levels generalizing r₁ r₂ with
  | nil => simp [consumeTakes]
  | cons level rest ih =>
    obtain ⟨price, size⟩ := level
    obtain ⟨later, sorted⟩ := List.pairwise_cons.mp sorted
    rcases consumeTakes_cons_cases price size r₁ rest with
      ⟨-, stop₁⟩ | ⟨funds₁, empty₁, skip₁⟩ | ⟨funds₁, positive, take₁, step₁⟩
    · simp [stop₁]
    · rcases consumeTakes_cons_cases price size r₂ rest with
        ⟨done₂, -⟩ | ⟨-, -, skip₂⟩ | ⟨-, positive₂, take₂, -⟩
      · linarith
      · simpa [skip₁, skip₂] using ih sorted larger
      · exact absurd empty₁ (by push_neg; exact ⟨positive₂, (lt_min_iff.mp take₂).1⟩)
    · rcases consumeTakes_cons_cases price size r₂ rest with
        ⟨done₂, -⟩ | ⟨-, empty₂, -⟩ | ⟨-, -, -, step₂⟩
      · linarith
      · exact absurd empty₂ (by push_neg; exact ⟨positive, (lt_min_iff.mp take₁).1⟩)
      simp only [step₁, step₂, List.sum_cons, purchaseCost_cons]
      -- The two runs go on from `r₁' ≤ r₂'` over the rest, whose prices are all at least `price`.
      generalize hr₁ : r₁ - min size (r₁ / price) * price = r₁' at *
      generalize hr₂ : r₂ - min size (r₂ / price) * price = r₂' at *
      have rest_larger : r₁' ≤ r₂' := hr₁ ▸ hr₂ ▸ remaining_mono positive larger
      have rest_purchase := consumeTakes_isPurchase rest r₂'
      have rest_dearer : price * (consumeTakes rest r₂').sum ≤
          purchaseCost rest (consumeTakes rest r₂') :=
        rest_purchase.le_purchaseCost fun pair member _ => later _ (List.of_mem_zip member).1
      by_cases short : min size (r₁ / price) ≠ size
      · -- The smaller run is used up at this level and takes nothing later.
        rw [← hr₁, remaining_eq_zero_of_take_ne positive short,
          consumeTakes_of_le_epsilon rest epsilon_pos.le]
        simp only [sum_nothingFrom, purchaseCost_nothingFrom, add_zero]
        linarith [mul_le_mul_of_nonneg_left rest_dearer take₁.le]
      · -- Both runs take the level whole; the rest's extra shares cost at least `price` each.
        rw [not_not] at short
        have grows : min size (r₁ / price) ≤ min size (r₂ / price) := take_mono positive larger
        rw [short] at grows
        have whole : min size (r₂ / price) = size := le_antisymm (min_le_left _ _) grows
        rw [short, whole]
        have marginal := consumeTakes_cheapest rest_purchase sorted r₁' price
          (fun level member _ => later level member) (consumeTakes_sum_mono rest rest_larger)
        have inner := ih sorted rest_larger
        linarith [mul_le_mul_of_nonneg_left marginal (lt_min_iff.mp take₁).1.le]

end Sorted

/-- **`consume_asks_for_buy` is monotone in its budget.** On an ask ladder sorted by price, a
smaller budget buys no more shares, spends no more, and, when both budgets buy shares, pays an
average price no higher than the larger one. The ladder's prices and sizes are finite
(`OrderBook`): with a `nan`, which the feed can store, Python's comparisons all fail and the
result does not apply. -/
theorem consumeAsksForBuy_monotone (ob : OrderBook) {u₁ u₂ : ℚ}
    (sorted : ob.asks.Pairwise fun a b => a.1 ≤ b.1) (larger : u₁ ≤ u₂) :
    (consumeAsksForBuy ob u₁).1 ≤ (consumeAsksForBuy ob u₂).1 ∧
      (consumeAsksForBuy ob u₁).2.2 ≤ (consumeAsksForBuy ob u₂).2.2 ∧
      (0 < (consumeAsksForBuy ob u₁).1 → 0 < (consumeAsksForBuy ob u₂).1 →
        (consumeAsksForBuy ob u₁).2.1 ≤ (consumeAsksForBuy ob u₂).2.1) := by
  simp only [consumeAsksForBuy_eq]
  refine ⟨consumeTakes_sum_mono ob.asks larger, consumeTakes_cost_mono sorted larger,
    fun some₁ some₂ => ?_⟩
  rw [if_pos some₁, if_pos some₂, div_le_div_iff₀ some₁ some₂]
  exact consumeTakes_average_mono sorted larger

/-- The spec's ladder `[(0.10, 5), (0.12, 10)]`: `$0.50` buys at `0.10`, `$1.10` at `0.11`. -/
theorem consumeAsksForBuy_monotone_spec_ladder :
    ([((0.10 : ℚ), (5 : ℚ)), (0.12, 10)].Pairwise fun a b => a.1 ≤ b.1) ∧ (0.50 : ℚ) ≤ 1.10 ∧
      (consumeAsksForBuy { asks := [(0.10, 5), (0.12, 10)] } 0.50).2.1 ≤
        (consumeAsksForBuy { asks := [(0.10, 5), (0.12, 10)] } 1.10).2.1 := by
  have sorted : [((0.10 : ℚ), (5 : ℚ)), (0.12, 10)].Pairwise fun a b => a.1 ≤ b.1 := by
    with_unfolding_all decide
  have larger : (0.50 : ℚ) ≤ 1.10 := by norm_num
  have bought : 0 < (consumeAsksForBuy { asks := [(0.10, 5), (0.12, 10)] } 0.50).1 ∧
      0 < (consumeAsksForBuy { asks := [(0.10, 5), (0.12, 10)] } 1.10).1 := by
    with_unfolding_all decide
  exact ⟨sorted, larger, (consumeAsksForBuy_monotone { asks := [(0.10, 5), (0.12, 10)] } sorted
    larger).2.2 bought.1 bought.2⟩

end PaperTrader
