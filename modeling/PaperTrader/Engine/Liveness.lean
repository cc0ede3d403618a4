/-
**When the hedge loop and a tick stop.**

The `while` loop of `_hedge_chunks` buys chunks of the hedge book until the hedge has caught up
with the primary side, and a tick runs it after the DCA buy. `step_spins_without_cash` shows that
without the cash for its chunks it need not stop; here is what does stop it:

* `hedgeLoop_exit` — when the hedge loop returns, it has stopped for one of its reasons
  (`HedgeStopped`): the hedge caught up to within `1e-9`, at `max_side_spend_usd`, a book that
  fills nothing, or the sum cap;
* `hedgeLoop_stops` — **the hedge loop stops** once `n` chunks of the hedge book bring the hedge
  cost up to the primary's or to `max_side_spend_usd` and the cash pays for them with
  `require_free_cash` to spare: within `n + 1` checks of its condition;
* `step_returns` — so **a tick returns** when, on either side, the cash pays a DCA chunk and then
  the hedge chunks that reach `max_side_spend_usd` (`dcaIfTrigger_account`: the DCA spends at most
  a chunk and leaves the hedge position as it was).
-/

import PaperTrader.Engine.Ladder

namespace PaperTrader

open UpDownStrategyEngine

/-! ### When the hedge loop stops -/

section Stop

variable {cfg : StrategyConfig} {mkt : ActiveMarket}

/-- A chunk's estimate spends something only on a budget above `1e-9`. -/
theorem consumeAsksForBuy_budget_gt {ob : OrderBook} {usd : ℚ}
    (paid : 0 < (consumeAsksForBuy ob usd).2.2) : epsilon < usd := by
  by_contra! low
  simp [consumeAsksForBuy_eq, consumeTakes_of_le_epsilon _ low] at paid

/-- A chunk the book fills and the cash pays for, with `require_free_cash` to spare, is bought. -/
theorem maybeBuy_of_affordable {tokenId : String} {ob : OrderBook} {acct : PaperAccount}
    {usd shares avg spent : ℚ} {note : String} (positive : 0 < usd)
    (affordable : usd + cfg.requireFreeCash ≤ acct.cash)
    (estimate : consumeAsksForBuy ob usd = (shares, avg, spent)) (filled : 0 < shares)
    (paid : 0 < spent) :
    (maybeBuy cfg mkt tokenId ob acct usd note).1 = acct.credit tokenId shares spent := by
  simp [maybeBuy, estimate, not_le.mpr positive, not_lt.mpr affordable, not_le.mpr filled,
    not_le.mpr paid]

/-- The ways the loop of `_hedge_chunks` ends, read in the account it ends with: the hedge's cost
is within `1e-9` of the primary's or above it, or at `max_side_spend_usd`; a chunk of the hedge
book fills nothing; or the primary's average plus the chunk's reaches `sum_cap_dollars`. -/
def HedgeStopped (cfg : StrategyConfig) (primaryToken hedgeToken : String) (hedgeOb : OrderBook)
    (acct : PaperAccount) : Prop :=
  (acct.position primaryToken).costUsd ≤ (acct.position hedgeToken).costUsd + epsilon ∨
    cfg.maxSideSpendUsd ≤ (acct.position hedgeToken).costUsd ∨
    (consumeAsksForBuy hedgeOb cfg.buyChunkUsd).1 ≤ 0 ∨
    (consumeAsksForBuy hedgeOb cfg.buyChunkUsd).2.2 ≤ 0 ∨
    cfg.sumCapDollars ≤
      (acct.position primaryToken).avgPrice + (consumeAsksForBuy hedgeOb cfg.buyChunkUsd).2.1

instance HedgeStopped.decidable (cfg : StrategyConfig) (primaryToken hedgeToken : String)
    (hedgeOb : OrderBook) (acct : PaperAccount) :
    Decidable (HedgeStopped cfg primaryToken hedgeToken hedgeOb acct) :=
  inferInstanceAs (Decidable (_ ∨ _ ∨ _ ∨ _ ∨ _))

/-- **One check of the hedge loop's condition**: it stops with the account it has when
`HedgeStopped` holds there, and otherwise buys a chunk and checks again. -/
theorem hedgeLoop_succ {primaryToken hedgeToken : String} {hedgeOb : OrderBook} (fuel : ℕ)
    {acct acct1 : PaperAccount} {fill : Option Fill}
    (bought : maybeBuy cfg mkt hedgeToken hedgeOb acct cfg.buyChunkUsd "hedge_chunk_sumcap_ok" =
      (acct1, fill)) :
    hedgeLoop cfg mkt primaryToken hedgeToken hedgeOb (fuel + 1) (acct.position primaryToken)
        (acct.position hedgeToken) acct =
      if HedgeStopped cfg primaryToken hedgeToken hedgeOb acct then some (acct, [])
      else (hedgeLoop cfg mkt primaryToken hedgeToken hedgeOb fuel (acct1.position primaryToken)
          (acct1.position hedgeToken) acct1).map fun (acct', fills) => (acct', fill.toList ++ fills) := by
  rcases estimate : consumeAsksForBuy hedgeOb cfg.buyChunkUsd with ⟨estShares, estAvg, estSpent⟩
  by_cases behind : (acct.position hedgeToken).costUsd + epsilon < (acct.position primaryToken).costUsd
  · simp only [hedgeLoop, HedgeStopped, estimate, bought, if_pos behind, not_le.mpr behind, false_or,
      ite_or]
  · simp only [hedgeLoop, HedgeStopped, if_neg behind, not_lt.mp behind, true_or, if_true]

/-- When the hedge loop returns, it has stopped for one of its reasons. -/
theorem hedgeLoop_exit {primaryToken hedgeToken : String} {hedgeOb : OrderBook} :
    ∀ {fuel : ℕ} {acct acct' : PaperAccount} {fills : List Fill},
      hedgeLoop cfg mkt primaryToken hedgeToken hedgeOb fuel (acct.position primaryToken)
          (acct.position hedgeToken) acct = some (acct', fills) →
      HedgeStopped cfg primaryToken hedgeToken hedgeOb acct'
  | 0, _, _, _, result => by simp [hedgeLoop] at result
  | fuel + 1, acct, _, _, result => by
    rcases bought : maybeBuy cfg mkt hedgeToken hedgeOb acct cfg.buyChunkUsd "hedge_chunk_sumcap_ok"
      with ⟨acct1, fill⟩
    rw [hedgeLoop_succ fuel bought] at result
    split_ifs at result with stopped
    · obtain ⟨rfl, -⟩ := Prod.mk.inj (Option.some.inj result)
      exact stopped
    · obtain ⟨⟨acct2, rest⟩, inner, same⟩ := Option.map_eq_some'.mp result
      obtain ⟨rfl, -⟩ := Prod.mk.inj same
      exact hedgeLoop_exit inner

/-- The hedge loop returns once `chunks` chunks of the hedge book bring the hedge cost up to the
primary's or to `max_side_spend_usd` and the cash pays for them, each with `require_free_cash` to
spare. -/
theorem hedgeLoop_returns {primaryToken hedgeToken : String} {hedgeOb : OrderBook}
    (distinct : primaryToken ≠ hedgeToken) :
    ∀ (chunks fuel : ℕ) (acct : PaperAccount), chunks < fuel →
      min (acct.position primaryToken).costUsd cfg.maxSideSpendUsd ≤
        (acct.position hedgeToken).costUsd +
          chunks * (consumeAsksForBuy hedgeOb cfg.buyChunkUsd).2.2 →
      cfg.buyChunkUsd + cfg.requireFreeCash +
          (chunks - 1 : ℚ) * (consumeAsksForBuy hedgeOb cfg.buyChunkUsd).2.2 ≤ acct.cash →
      ∃ r, hedgeLoop cfg mkt primaryToken hedgeToken hedgeOb fuel (acct.position primaryToken)
        (acct.position hedgeToken) acct = some r := by
  intro chunks
  induction chunks with
  | zero =>
    rintro (_ | fuel) acct more reached -
    · omega
    -- No chunk is needed: the hedge is not behind, or it is at the cap.
    have stopped : HedgeStopped cfg primaryToken hedgeToken hedgeOb acct := by
      simp only [Nat.cast_zero, zero_mul, add_zero, min_le_iff] at reached
      rcases reached with caught | capped
      · exact .inl (caught.trans (le_add_of_nonneg_right epsilon_pos.le))
      · exact .inr (.inl capped)
    rcases bought : maybeBuy cfg mkt hedgeToken hedgeOb acct cfg.buyChunkUsd "hedge_chunk_sumcap_ok"
      with ⟨acct1, fill⟩
    exact ⟨(acct, []), by rw [hedgeLoop_succ fuel bought, if_pos stopped]⟩
  | succ chunks ih =>
    rintro (_ | fuel) acct more reached cash
    · omega
    rcases bought : maybeBuy cfg mkt hedgeToken hedgeOb acct cfg.buyChunkUsd "hedge_chunk_sumcap_ok"
      with ⟨acct1, fill⟩
    rw [hedgeLoop_succ fuel bought]
    split_ifs with stopped
    · exact ⟨_, rfl⟩
    simp only [HedgeStopped, not_or, not_le] at stopped
    obtain ⟨-, -, filled, paid, -⟩ := stopped
    rcases estimate : consumeAsksForBuy hedgeOb cfg.buyChunkUsd with ⟨estShares, estAvg, estSpent⟩
    simp only [estimate] at reached cash ih filled paid
    push_cast at reached cash
    have chunk : 0 < cfg.buyChunkUsd :=
      epsilon_pos.trans (consumeAsksForBuy_budget_gt (by rw [estimate]; exact paid))
    have spare : cfg.buyChunkUsd + cfg.requireFreeCash ≤ acct.cash := by
      rw [add_sub_cancel_right] at cash
      linarith only [cash, mul_nonneg (Nat.cast_nonneg chunks) paid.le]
    have credited : acct1 = acct.credit hedgeToken estShares estSpent := by
      have bought1 := congrArg Prod.fst bought
      rwa [maybeBuy_of_affordable chunk spare estimate filled paid, eq_comm] at bought1
    subst credited
    obtain ⟨r, inner⟩ := ih fuel (acct.credit hedgeToken estShares estSpent) (by omega)
      (by simp only [PaperAccount.credit_position, distinct, ↓reduceIte]; linarith)
      (by simp only [PaperAccount.credit_cash]; linarith)
    exact ⟨_, by rw [inner]; rfl⟩

/-- **The hedge loop stops, and for one of its reasons.** Once `chunks` chunks of the hedge book
bring the hedge cost up to the primary's or to `max_side_spend_usd`, and the cash pays for them
with `require_free_cash` to spare, the loop returns within `chunks + 1` checks of its condition,
with the hedge caught up to within `1e-9`, at the cap, out of liquidity or at the sum cap. -/
theorem hedgeLoop_stops {primaryToken hedgeToken : String} {hedgeOb : OrderBook}
    (distinct : primaryToken ≠ hedgeToken) (chunks fuel : ℕ) (acct : PaperAccount)
    (more : chunks < fuel)
    (reached : min (acct.position primaryToken).costUsd cfg.maxSideSpendUsd ≤
      (acct.position hedgeToken).costUsd +
        chunks * (consumeAsksForBuy hedgeOb cfg.buyChunkUsd).2.2)
    (cash : cfg.buyChunkUsd + cfg.requireFreeCash +
      (chunks - 1 : ℚ) * (consumeAsksForBuy hedgeOb cfg.buyChunkUsd).2.2 ≤ acct.cash) :
    ∃ acct' fills, hedgeLoop cfg mkt primaryToken hedgeToken hedgeOb fuel
        (acct.position primaryToken) (acct.position hedgeToken) acct = some (acct', fills) ∧
      HedgeStopped cfg primaryToken hedgeToken hedgeOb acct' :=
  let ⟨⟨acct', fills⟩, result⟩ := hedgeLoop_returns distinct chunks fuel acct more reached cash
  ⟨acct', fills, result, hedgeLoop_exit result⟩

/-- An account whose token `U` cost two dollars, with nothing in `D`. -/
def primaryAccount : PaperAccount := ⟨"BTC", 98, Dict.empty.insert "U" ⟨6, 2⟩⟩

/-- Two chunks of 30-cent asks bring the hedge up to a primary side that cost two dollars. -/
theorem hedgeLoop_stops_two_chunks : ("U" : String) ≠ "D" ∧ 2 < 3 ∧
    min (primaryAccount.position "U").costUsd StrategyConfig.default.maxSideSpendUsd ≤
      (primaryAccount.position "D").costUsd + (2 : ℕ) *
        (consumeAsksForBuy { asks := [(0.30, 100)] } StrategyConfig.default.buyChunkUsd).2.2 ∧
    StrategyConfig.default.buyChunkUsd + StrategyConfig.default.requireFreeCash +
        ((2 : ℕ) - 1 : ℚ) *
          (consumeAsksForBuy { asks := [(0.30, 100)] } StrategyConfig.default.buyChunkUsd).2.2 ≤
      primaryAccount.cash ∧
    ∃ acct' fills, hedgeLoop StrategyConfig.default sampleMarket "U" "D" { asks := [(0.30, 100)] }
        3 (primaryAccount.position "U") (primaryAccount.position "D") primaryAccount =
          some (acct', fills) ∧
      HedgeStopped StrategyConfig.default "U" "D" { asks := [(0.30, 100)] } acct' := by
  have distinct : ("U" : String) ≠ "D" := by decide
  have reached : min (primaryAccount.position "U").costUsd StrategyConfig.default.maxSideSpendUsd ≤
      (primaryAccount.position "D").costUsd + (2 : ℕ) *
        (consumeAsksForBuy { asks := [(0.30, 100)] } StrategyConfig.default.buyChunkUsd).2.2 := by
    with_unfolding_all decide
  have cash : StrategyConfig.default.buyChunkUsd + StrategyConfig.default.requireFreeCash +
      ((2 : ℕ) - 1 : ℚ) *
        (consumeAsksForBuy { asks := [(0.30, 100)] } StrategyConfig.default.buyChunkUsd).2.2 ≤
      primaryAccount.cash := by
    with_unfolding_all decide
  exact ⟨distinct, by decide, reached, cash,
    hedgeLoop_stops distinct 2 3 primaryAccount (by decide) reached cash⟩

end Stop

/-! ### When a tick returns -/

section Returns

variable {cfg : StrategyConfig} {mkt : ActiveMarket}

/-- `_dca_if_trigger` spends at most a chunk of cash, and buys only its own token. -/
theorem dcaIfTrigger_account (chunk : 0 ≤ cfg.buyChunkUsd) {eng eng' : UpDownStrategyEngine}
    {side : Side} {tokenId : String} {ob : OrderBook} {bestAsk : ℚ} {acct acct' : PaperAccount}
    {fills : List Fill}
    (result : dcaIfTrigger cfg mkt eng side tokenId ob bestAsk acct = (eng', acct', fills)) :
    acct.cash - cfg.buyChunkUsd ≤ acct'.cash ∧ ∀ t, t ≠ tokenId → acct'.position t = acct.position t := by
  rcases dcaIfTrigger_cases result with ⟨-, rfl, -⟩ | ⟨-, -, -, fill, bought, -⟩
  · exact ⟨by linarith, fun _ _ => rfl⟩
  refine ⟨?_, fun t other => maybeBuy_position_of_ne bought other⟩
  rcases maybeBuy_cases bought with ⟨rfl, -⟩ | ⟨budget, -, -, -, rfl, -⟩
  · linarith
  · simp only [PaperAccount.credit_cash]
    linarith [consumeAsksForBuy_spent_le ob budget.le]

/-- The hedge step of a tick returns when the chunks that reach `max_side_spend_usd` are covered
by the cash. -/
theorem hedgeStep_returns (side : Side) (hedgeOb : OrderBook) (hedgeAsk : ℚ) (acct : PaperAccount)
    {fuel chunks : ℕ} (distinct : mkt.token side ≠ mkt.token side.other)
    (hedgeNonneg : 0 ≤ (acct.position (mkt.token side.other)).costUsd) (more : chunks < fuel)
    (covers : cfg.maxSideSpendUsd ≤ chunks * (consumeAsksForBuy hedgeOb cfg.buyChunkUsd).2.2)
    (cash : cfg.buyChunkUsd + cfg.requireFreeCash +
      (chunks - 1 : ℚ) * (consumeAsksForBuy hedgeOb cfg.buyChunkUsd).2.2 ≤ acct.cash) :
    ∃ r, (if 0 < (acct.position (mkt.token side)).costUsd then
        hedgeChunks cfg mkt fuel (mkt.token side) (mkt.token side.other)
          (acct.position (mkt.token side)) (acct.position (mkt.token side.other)) hedgeOb hedgeAsk
          acct
      else some (acct, [])) = some r := by
  unfold hedgeChunks
  split_ifs
  · exact ⟨_, rfl⟩
  · exact hedgeLoop_returns distinct chunks fuel acct more
      (by linarith [min_le_right (acct.position (mkt.token side)).costUsd cfg.maxSideSpendUsd]) cash
  · exact ⟨_, rfl⟩

/-- A `threshold35` tick returns when, for either side as the hedge, the chunks that reach
`max_side_spend_usd` are covered by the cash left after a DCA chunk. -/
theorem stepThreshold35_returns (chunk : 0 ≤ cfg.buyChunkUsd)
    (distinct : mkt.upToken ≠ mkt.downToken) {eng : UpDownStrategyEngine} {upOb downOb : OrderBook}
    {upAsk downAsk : ℚ} {acct : PaperAccount} (wf : AccountWf acct) {chunks fuel : ℕ}
    (more : chunks < fuel)
    (covers : ∀ side, cfg.maxSideSpendUsd ≤ chunks *
      (consumeAsksForBuy ((⟨upOb, downOb⟩ : PerSide OrderBook).get side) cfg.buyChunkUsd).2.2)
    (cash : ∀ side, 2 * cfg.buyChunkUsd + cfg.requireFreeCash + (chunks - 1 : ℚ) *
      (consumeAsksForBuy ((⟨upOb, downOb⟩ : PerSide OrderBook).get side) cfg.buyChunkUsd).2.2 ≤
        acct.cash) :
    ∃ r, stepThreshold35 cfg mkt fuel eng upOb downOb upAsk downAsk acct = some r := by
  simp only [stepThreshold35]
  generalize choosePrimary cfg eng upAsk downAsk = eng1
  rcases primary : eng1.primary with _ | side
  · simp only [primary]
    exact ⟨_, rfl⟩
  have tokens : mkt.token side ≠ mkt.token side.other := by
    cases side <;> simp [ActiveMarket.token, Side.other, distinct, Ne.symm distinct]
  rcases dca : dcaIfTrigger cfg mkt eng1 side (mkt.token side)
    ((⟨upOb, downOb⟩ : PerSide OrderBook).get side) ((⟨upAsk, downAsk⟩ : PerSide ℚ).get side) acct
    with ⟨eng2, acct1, dcaFills⟩
  have primary2 := (dcaIfTrigger_buys dca).2.1
  rw [primary] at primary2
  obtain ⟨spent, kept⟩ := dcaIfTrigger_account chunk dca
  have hedgeNonneg : 0 ≤ (acct1.position (mkt.token side.other)).costUsd := by
    rw [kept _ tokens.symm]
    exact (wf.position _).cost_nonneg
  obtain ⟨r, hedged⟩ := hedgeStep_returns side ((⟨upOb, downOb⟩ : PerSide OrderBook).get side.other)
    ((⟨upAsk, downAsk⟩ : PerSide ℚ).get side.other) acct1 tokens hedgeNonneg more (covers side.other)
    (by linarith [cash side.other])
  cases side <;> simp only [ActiveMarket.token, PerSide.get, Side.other] at dca hedged <;>
    simp only [primary, dca, primary2, hedged, Option.map_some'] <;> exact ⟨_, rfl⟩

/-- **A tick returns when the cash covers its hedge.** For every engine, every well-formed
account and every pair of books of a market whose two tokens differ: when `chunks` chunks of
either book reach `max_side_spend_usd`, and the cash covers a DCA chunk and then those hedge
chunks with `require_free_cash` to spare, the tick returns with more than `chunks` checks of
fuel. Without the cash it need not (`step_spins_without_cash`). -/
theorem step_returns (chunk : 0 ≤ cfg.buyChunkUsd) (distinct : mkt.upToken ≠ mkt.downToken)
    {eng : UpDownStrategyEngine} {store : OrderBookStore} {acct : PaperAccount} (wf : AccountWf acct)
    (chunks fuel : ℕ) (more : chunks < fuel)
    (covers : ∀ side, cfg.maxSideSpendUsd ≤
      chunks * (consumeAsksForBuy (store.get (mkt.token side)) cfg.buyChunkUsd).2.2)
    (cash : ∀ side, 2 * cfg.buyChunkUsd + cfg.requireFreeCash + (chunks - 1 : ℚ) *
      (consumeAsksForBuy (store.get (mkt.token side)) cfg.buyChunkUsd).2.2 ≤ acct.cash) :
    ∃ r, step cfg mkt fuel eng store acct = some r := by
  simp only [step]
  split
  · split
    · exact stepThreshold35_returns chunk distinct wf more
        (fun side => by cases side; exacts [covers .up, covers .down])
        (fun side => by cases side; exacts [cash .up, cash .down])
    · exact ⟨_, rfl⟩
  · exact ⟨_, rfl⟩

theorem step_returns_default : 0 ≤ StrategyConfig.default.buyChunkUsd ∧
    sampleMarket.upToken ≠ sampleMarket.downToken ∧ AccountWf (freshAccount 100) ∧ 4 < 5 ∧
    (∀ side, StrategyConfig.default.maxSideSpendUsd ≤ (4 : ℕ) *
      (consumeAsksForBuy ((bookPair [(0.30, 100)] [(0.30, 100)]).get (sampleMarket.token side))
        StrategyConfig.default.buyChunkUsd).2.2) ∧
    (∀ side, 2 * StrategyConfig.default.buyChunkUsd + StrategyConfig.default.requireFreeCash +
      ((4 : ℕ) - 1 : ℚ) *
        (consumeAsksForBuy ((bookPair [(0.30, 100)] [(0.30, 100)]).get (sampleMarket.token side))
          StrategyConfig.default.buyChunkUsd).2.2 ≤ (freshAccount 100).cash) ∧
    ∃ r, step StrategyConfig.default sampleMarket 5 (new StrategyConfig.default .threshold35)
      (bookPair [(0.30, 100)] [(0.30, 100)]) (freshAccount 100) = some r := by
  have chunk : 0 ≤ StrategyConfig.default.buyChunkUsd := by norm_num [StrategyConfig.default]
  have distinct : sampleMarket.upToken ≠ sampleMarket.downToken := by decide
  have wf : AccountWf (freshAccount 100) := ⟨by norm_num [freshAccount], by simp [freshAccount, Dict.empty]⟩
  have covers : ∀ side, StrategyConfig.default.maxSideSpendUsd ≤ (4 : ℕ) *
      (consumeAsksForBuy ((bookPair [(0.30, 100)] [(0.30, 100)]).get (sampleMarket.token side))
        StrategyConfig.default.buyChunkUsd).2.2 := by
    intro side
    cases side <;> with_unfolding_all decide
  have cash : ∀ side, 2 * StrategyConfig.default.buyChunkUsd + StrategyConfig.default.requireFreeCash +
      ((4 : ℕ) - 1 : ℚ) *
        (consumeAsksForBuy ((bookPair [(0.30, 100)] [(0.30, 100)]).get (sampleMarket.token side))
          StrategyConfig.default.buyChunkUsd).2.2 ≤ (freshAccount 100).cash := by
    intro side
    cases side <;> with_unfolding_all decide
  exact ⟨chunk, distinct, wf, by decide, covers, cash,
    step_returns chunk distinct wf 4 5 (by decide) covers cash⟩

end Returns

end PaperTrader
