/-
**One market under `threshold35`: the bounds its runs keep, and the spec's bounds they miss.**

`MarketRun` is every state one market's run reaches: a reset engine and an account holding
nothing in the market's two tokens, then ticks on any books. `step_threshold35` says once what a
tick of this mode does; the results below all come from it:

* `marketRun_cost_lt_cap_add_chunk` — a token's cost stays below `max_side_spend_usd` plus one
  chunk; `marketRun_cost_over_cap` — it can pass `max_side_spend_usd`, which is checked only
  before a chunk;
* `marketRun_hedge_cost_lt` — the hedge loop balances dollars: the hedge side's cost stays below
  the primary's plus one chunk; `marketRun_hedged_payout_below_cost` — it does not balance
  shares, so a caught-up hedge can pay out less than the two sides cost;
* `step_hedge_fill_below_sum_cap` — `sum_cap_dollars` bounds the primary average plus a hedge
  fill's own price; `hedge_fill_over_sum_cap` — not plus the hedge position's average;
* `hedgeLoop_spins`, `step_spins_without_cash` — with its checks passing and cash short of a
  chunk plus `require_free_cash`, the hedge loop never stops.
-/

import PaperTrader.Ledger.Invariants

namespace PaperTrader

open UpDownStrategyEngine

/-! ### Runs of one market -/

/-- The states one market's run reaches in a mode: from a reset engine and an account with
nothing in the market's two tokens, ticks on any books with any fuel. -/
inductive MarketRun (cfg : StrategyConfig) (mkt : ActiveMarket) (mode : Mode) :
    UpDownStrategyEngine → PaperAccount → Prop
  | start (acct : PaperAccount) : acct.position mkt.upToken = {} →
      acct.position mkt.downToken = {} → MarketRun cfg mkt mode (new cfg mode) acct
  | tick {eng eng' : UpDownStrategyEngine} {acct acct' : PaperAccount} (fuel : ℕ)
      (store : OrderBookStore) (fills : List Fill) : MarketRun cfg mkt mode eng acct →
      step cfg mkt fuel eng store acct = some (eng', acct', fills) →
      MarketRun cfg mkt mode eng' acct'

section Runs

variable {cfg : StrategyConfig} {mkt : ActiveMarket} {mode : Mode}

theorem MarketRun.mode_eq {eng : UpDownStrategyEngine} {acct : PaperAccount}
    (run : MarketRun cfg mkt mode eng acct) : eng.mode = mode := by
  induction run with
  | start => rfl
  | tick _ _ _ _ result ih => exact (step_buys result).1.trans ih

/-- The ticks of a run on the given books, one store a tick, and their fills in order; `none` when
a hedge loop runs out of fuel. -/
def runTicks (cfg : StrategyConfig) (mkt : ActiveMarket) (fuel : ℕ) :
    UpDownStrategyEngine → PaperAccount → List OrderBookStore →
      Option (UpDownStrategyEngine × PaperAccount × List Fill)
  | eng, acct, [] => some (eng, acct, [])
  | eng, acct, store :: stores =>
    match step cfg mkt fuel eng store acct with
    | some (eng', acct', fills) =>
      (runTicks cfg mkt fuel eng' acct' stores).map fun (eng'', acct'', rest) =>
        (eng'', acct'', fills ++ rest)
    | none => none

theorem runTicks_marketRun {fuel : ℕ} :
    ∀ {stores : List OrderBookStore} {eng eng' : UpDownStrategyEngine} {acct acct' : PaperAccount}
      {fills : List Fill}, MarketRun cfg mkt mode eng acct →
      runTicks cfg mkt fuel eng acct stores = some (eng', acct', fills) →
      MarketRun cfg mkt mode eng' acct'
  | [], _, _, _, _, _, run, result => by
    obtain ⟨rfl, rfl, rfl⟩ := Option.some.inj result
    exact run
  | store :: stores, eng, _, acct, _, _, run, result => by
    simp only [runTicks] at result
    split at result
    · next eng1 acct1 fills1 ticked =>
      obtain ⟨⟨eng2, acct2, rest⟩, later, same⟩ := Option.map_eq_some'.mp result
      simp only [Prod.mk.injEq] at same
      obtain ⟨rfl, rfl, -⟩ := same
      exact runTicks_marketRun (.tick fuel store fills1 run ticked) later
    · cases result

/-- A replayed run whose end passes a test reaches a state that passes it. -/
theorem exists_of_runTicks {fuel : ℕ} {stores : List OrderBookStore} {eng : UpDownStrategyEngine}
    {acct : PaperAccount} {p : UpDownStrategyEngine × PaperAccount × List Fill → Bool}
    (run : MarketRun cfg mkt mode eng acct)
    (passes : (runTicks cfg mkt fuel eng acct stores).any p = true) :
    ∃ eng' acct' fills, MarketRun cfg mkt mode eng' acct' ∧ p (eng', acct', fills) = true := by
  rcases result : runTicks cfg mkt fuel eng acct stores with _ | ⟨eng', acct', fills⟩
  · simp [result] at passes
  · exact ⟨eng', acct', fills, runTicks_marketRun run result, by simpa [result] using passes⟩

/-- A tick whose outcome passes a test returns one that passes it. -/
theorem exists_of_step {fuel : ℕ} {eng : UpDownStrategyEngine} {store : OrderBookStore}
    {acct : PaperAccount} {p : UpDownStrategyEngine × PaperAccount × List Fill → Bool}
    (passes : (step cfg mkt fuel eng store acct).any p = true) :
    ∃ eng' acct' fills, step cfg mkt fuel eng store acct = some (eng', acct', fills) ∧
      p (eng', acct', fills) = true := by
  rcases result : step cfg mkt fuel eng store acct with _ | ⟨eng', acct', fills⟩
  · simp [result] at passes
  · exact ⟨eng', acct', fills, rfl, by simpa [result] using passes⟩

end Runs

/-! ### A market to replay runs on -/

/-- A market on the tokens `U` and `D`. -/
def sampleMarket : ActiveMarket := ⟨"BTC", "btc-updown-15m-1", "c", 1000, "U", "D"⟩

/-- Books of the two tokens with a bid of a cent each and the given ask ladders. -/
def bookPair (upAsks downAsks : List (ℚ × ℚ)) : OrderBookStore :=
  ⟨⟨[("U", { bids := [(0.01, 1)], asks := upAsks }), ("D", { bids := [(0.01, 1)], asks := downAsks })],
    by simp⟩⟩

/-- An account with the given cash and no positions. -/
def freshAccount (cash : ℚ) : PaperAccount := ⟨"BTC", cash, Dict.empty⟩

theorem freshAccount_marketRun (cfg : StrategyConfig) (mode : Mode) (cash : ℚ) :
    MarketRun cfg sampleMarket mode (new cfg mode) (freshAccount cash) :=
  .start _ rfl rfl

/-- With asks of 30 cents on both sides the first tick enters `UP` and hedges it with `DOWN`. -/
theorem entry_tick : ∃ eng acct fills,
    step StrategyConfig.default sampleMarket 10 (new StrategyConfig.default .threshold35)
      (bookPair [(0.30, 100)] [(0.30, 100)]) (freshAccount 100) = some (eng, acct, fills) ∧
    eng.primary = some .up ∧ ∃ f ∈ fills, f.note = "hedge_chunk_sumcap_ok" := by
  obtain ⟨eng, acct, fills, result, passes⟩ := exists_of_step
    (show (step StrategyConfig.default sampleMarket 10 (new StrategyConfig.default .threshold35)
      (bookPair [(0.30, 100)] [(0.30, 100)]) (freshAccount 100)).any (fun r =>
        decide (r.1.primary = some .up) && r.2.2.any (·.note == "hedge_chunk_sumcap_ok")) = true
      by with_unfolding_all decide)
  simp only [Bool.and_eq_true, decide_eq_true_eq, List.any_eq_true, beq_iff_eq] at passes
  exact ⟨eng, acct, fills, result, passes⟩

theorem entry_tick_marketRun : ∃ eng acct,
    MarketRun StrategyConfig.default sampleMarket .threshold35 eng acct ∧ eng.primary = some .up := by
  obtain ⟨eng, acct, fills, result, primary, -⟩ := entry_tick
  exact ⟨eng, acct, .tick 10 _ fills (freshAccount_marketRun _ _ 100) result, primary⟩

/-! ### What a `threshold35` tick does -/

section Tick

variable {cfg : StrategyConfig} {mkt : ActiveMarket} {fuel : ℕ} {eng eng' : UpDownStrategyEngine}
  {store : OrderBookStore} {acct acct' : PaperAccount} {fills : List Fill}

theorem choosePrimary_of_some {side : Side} (chosen : eng.primary = some side) (upAsk downAsk : ℚ) :
    choosePrimary cfg eng upAsk downAsk = eng := by
  simp [choosePrimary, chosen]

/-- **What a `threshold35` tick does:** it keeps a chosen primary side; while none is chosen it
changes nothing; once one is, it makes DCA buys of that side's token, then hedge buys of the
other's. -/
theorem step_threshold35 (mode : eng.mode = .threshold35)
    (result : step cfg mkt fuel eng store acct = some (eng', acct', fills)) :
    (∀ side, eng.primary = some side → eng'.primary = some side) ∧
      (eng'.primary = none → acct' = acct ∧ fills = []) ∧
      ∀ side, eng'.primary = some side → ∃ acct1 dcaFills hedgeFills,
        fills = dcaFills ++ hedgeFills ∧
        BuysThrough cfg mkt (dcaChunk cfg (mkt.token side) side.label) acct acct1 dcaFills ∧
        BuysThrough cfg mkt (hedgeChunk cfg (mkt.token side) (mkt.token side.other)) acct1 acct'
          hedgeFills := by
  simp only [step] at result
  split at result
  · simp only [mode] at result
    obtain ⟨-, primary, quiet, buys⟩ := stepThreshold35_buys result
    refine ⟨fun side chosen => ?_, quiet, buys⟩
    rw [primary, choosePrimary_of_some chosen]
    exact chosen
  · obtain ⟨rfl, rfl, rfl⟩ := Option.some.inj result
    exact ⟨fun _ => id, fun _ => ⟨rfl, rfl⟩, fun _ _ => ⟨acct, [], [], rfl, .done _, .done _⟩⟩

end Tick

/-! ### Costs across buys -/

namespace BuysThrough

variable {cfg : StrategyConfig} {mkt : ActiveMarket}
  {allowed : PaperAccount → String → OrderBook → String → Prop}
  {acct acct' : PaperAccount} {fills : List Fill}

/-- Buys never lower a token's cost. -/
theorem cost_le (through : BuysThrough cfg mkt allowed acct acct' fills) (k : String) :
    (acct.position k).costUsd ≤ (acct'.position k).costUsd :=
  through.preserves (fun a => (acct.position k).costUsd ≤ (a.position k).costUsd)
    (fun _ _ _ _ _ _ _ bought before => by
      rcases maybeBuy_cost bought k with same | ⟨-, raised, -⟩
      · rwa [same]
      · exact before.trans raised.le)
    le_rfl

/-- Buys of other tokens than `k` leave `k`'s position as it was. -/
theorem position_eq {k : String} (avoid : ∀ a t ob note, allowed a t ob note → t ≠ k)
    (through : BuysThrough cfg mkt allowed acct acct' fills) : acct'.position k = acct.position k :=
  through.preserves (fun a => a.position k = acct.position k)
    (fun _ _ _ _ _ _ permit bought before =>
      (maybeBuy_position_of_ne bought (avoid _ _ _ _ permit).symm).trans before)
    rfl

/-- Buys each made while the bought token's cost is below `max_side_spend_usd` keep every token
below it plus one chunk. -/
theorem cost_lt_cap_add_chunk
    (below : ∀ a t ob note, allowed a t ob note → (a.position t).costUsd < cfg.maxSideSpendUsd)
    (through : BuysThrough cfg mkt allowed acct acct' fills) (k : String)
    (start : (acct.position k).costUsd < cfg.maxSideSpendUsd + cfg.buyChunkUsd) :
    (acct'.position k).costUsd < cfg.maxSideSpendUsd + cfg.buyChunkUsd :=
  through.preserves (fun a => (a.position k).costUsd < cfg.maxSideSpendUsd + cfg.buyChunkUsd)
    (fun _ _ _ _ _ _ permit bought before => by
      rcases maybeBuy_cost bought k with same | ⟨rfl, -, raised⟩
      · rwa [same]
      · linarith [below _ _ _ _ permit])
    start

end BuysThrough

/-! ### The side cap -/

section SideCap

variable {cfg : StrategyConfig} {mkt : ActiveMarket}

/-- **No token's cost reaches `max_side_spend_usd` plus one chunk in a `threshold35` run**: every
DCA and hedge chunk starts below the cap and spends at most `buy_chunk_usd`. -/
theorem marketRun_cost_lt_cap_add_chunk (positive : 0 < cfg.maxSideSpendUsd + cfg.buyChunkUsd)
    {eng : UpDownStrategyEngine} {acct : PaperAccount}
    (run : MarketRun cfg mkt .threshold35 eng acct) (side : Side) :
    (acct.position (mkt.token side)).costUsd < cfg.maxSideSpendUsd + cfg.buyChunkUsd := by
  induction run with
  | start acct up down => cases side <;> simpa [ActiveMarket.token, up, down] using positive
  | @tick eng eng' acct acct' fuel store fills run result ih =>
    obtain ⟨-, quiet, buys⟩ := step_threshold35 run.mode_eq result
    rcases primary : eng'.primary with _ | chosen
    · rw [(quiet primary).1]
      exact ih
    · obtain ⟨acct1, dcaFills, hedgeFills, -, dca, hedge⟩ := buys chosen primary
      exact hedge.cost_lt_cap_add_chunk (fun _ _ _ _ permit => permit.2.2.1) _
        (dca.cost_lt_cap_add_chunk (fun _ _ _ _ permit => permit.2.2) _ ih)

theorem marketRun_cost_lt_cap_add_chunk_default : ∃ eng acct,
    MarketRun StrategyConfig.default sampleMarket .threshold35 eng acct ∧ eng.primary = some .up ∧
    0 < StrategyConfig.default.maxSideSpendUsd + StrategyConfig.default.buyChunkUsd ∧
    ∀ side, (acct.position (sampleMarket.token side)).costUsd <
      StrategyConfig.default.maxSideSpendUsd + StrategyConfig.default.buyChunkUsd := by
  obtain ⟨eng, acct, run, primary⟩ := entry_tick_marketRun
  have positive : 0 < StrategyConfig.default.maxSideSpendUsd + StrategyConfig.default.buyChunkUsd := by
    norm_num [StrategyConfig.default]
  exact ⟨eng, acct, run, primary, positive, marketRun_cost_lt_cap_add_chunk positive run⟩

/-- **A hedge chunk started below `max_side_spend_usd` carries the side past it**: a first `DOWN`
book of two shares makes each hedge chunk there cost 60 cents, so after four DCA levels of `UP`
the last hedge chunk starts at 3.20 and ends at 4.20, over the cap of 4. -/
theorem marketRun_cost_over_cap : ∃ eng acct,
    MarketRun StrategyConfig.default sampleMarket .threshold35 eng acct ∧
    StrategyConfig.default.maxSideSpendUsd < (acct.position sampleMarket.downToken).costUsd := by
  obtain ⟨eng, acct, _, run, over⟩ := exists_of_runTicks (freshAccount_marketRun _ _ 100)
    (show (runTicks StrategyConfig.default sampleMarket 10 (new StrategyConfig.default .threshold35)
      (freshAccount 100)
      [bookPair [(0.30, 100)] [(0.30, 2)], bookPair [(0.30, 100)] [(0.30, 100)],
        bookPair [(0.25, 100)] [(0.30, 100)], bookPair [(0.20, 100)] [(0.30, 100)]]).any
      (fun r => decide (StrategyConfig.default.maxSideSpendUsd < (r.2.1.position "D").costUsd)) = true
      by with_unfolding_all decide)
  exact ⟨eng, acct, run, of_decide_eq_true over⟩

end SideCap

/-! ### Dollars balanced, not shares -/

section Balance

variable {cfg : StrategyConfig} {mkt : ActiveMarket} {acct acct' : PaperAccount}
  {fills : List Fill} {primaryToken hedgeToken : String}

/-- A hedge buy is never of the primary token: its cost is behind the primary's. -/
theorem hedgeChunk_ne {a : PaperAccount} {t : String} {ob : OrderBook} {note : String}
    (permit : hedgeChunk cfg primaryToken hedgeToken a t ob note) : t ≠ primaryToken := by
  rintro rfl
  obtain ⟨rfl, -, -, behind, -⟩ := permit
  linarith [epsilon_pos]

/-- DCA buys of the primary token keep the hedge token's cost below the primary's plus a chunk. -/
theorem dca_keeps_hedge_behind (chunk : 0 < cfg.buyChunkUsd) {label : String}
    (through : BuysThrough cfg mkt (dcaChunk cfg primaryToken label) acct acct' fills)
    (before : (acct.position hedgeToken).costUsd <
      (acct.position primaryToken).costUsd + cfg.buyChunkUsd) :
    (acct'.position hedgeToken).costUsd < (acct'.position primaryToken).costUsd + cfg.buyChunkUsd := by
  by_cases same : hedgeToken = primaryToken
  · rw [same]
    linarith
  · rw [through.position_eq fun _ _ _ _ permit => permit.1 ▸ Ne.symm same]
    linarith [through.cost_le primaryToken]

/-- Hedge buys keep the hedge token's cost below the primary's plus a chunk: each starts behind
the primary's and spends at most a chunk. -/
theorem hedge_keeps_hedge_behind
    (through : BuysThrough cfg mkt (hedgeChunk cfg primaryToken hedgeToken) acct acct' fills)
    (before : (acct.position hedgeToken).costUsd <
      (acct.position primaryToken).costUsd + cfg.buyChunkUsd) :
    (acct'.position hedgeToken).costUsd < (acct'.position primaryToken).costUsd + cfg.buyChunkUsd :=
  through.preserves
    (fun a => (a.position hedgeToken).costUsd < (a.position primaryToken).costUsd + cfg.buyChunkUsd)
    (fun _ _ _ _ _ _ permit bought before => by
      dsimp only at before ⊢
      rw [maybeBuy_position_of_ne bought (hedgeChunk_ne permit).symm]
      obtain ⟨token, -, -, behind, -⟩ := permit
      rw [token] at bought behind
      rcases maybeBuy_cost bought hedgeToken with same | ⟨-, -, raised⟩
      · rwa [same]
      · linarith [epsilon_pos])
    before

/-- **The hedge loop balances dollars**: in a `threshold35` run nothing is bought before a primary
side is chosen, and after, the hedge side's cost stays below the primary side's plus one chunk. -/
theorem marketRun_hedge_cost_lt (chunk : 0 < cfg.buyChunkUsd) {eng : UpDownStrategyEngine}
    {acct : PaperAccount} (run : MarketRun cfg mkt .threshold35 eng acct) :
    (eng.primary = none →
        (acct.position mkt.upToken).costUsd = 0 ∧ (acct.position mkt.downToken).costUsd = 0) ∧
      ∀ side, eng.primary = some side →
        (acct.position (mkt.token side.other)).costUsd <
          (acct.position (mkt.token side)).costUsd + cfg.buyChunkUsd := by
  induction run with
  | start acct up down =>
    exact ⟨fun _ => by simp [up, down], fun _ chosen => by cases chosen⟩
  | @tick eng eng' acct acct' fuel store fills run result ih =>
    obtain ⟨keep, quiet, buys⟩ := step_threshold35 run.mode_eq result
    refine ⟨fun unchosen => ?_, fun side chosen => ?_⟩
    · obtain ⟨rfl, -⟩ := quiet unchosen
      refine ih.1 (Option.eq_none_iff_forall_not_mem.mpr fun side chosen => ?_)
      simp [keep side chosen] at unchosen
    · obtain ⟨acct1, dcaFills, hedgeFills, -, dca, hedge⟩ := buys side chosen
      have before : (acct.position (mkt.token side.other)).costUsd <
          (acct.position (mkt.token side)).costUsd + cfg.buyChunkUsd := by
        rcases earlier : eng.primary with _ | side'
        · obtain ⟨up, down⟩ := ih.1 earlier
          cases side <;> simpa [ActiveMarket.token, Side.other, up, down] using chunk
        · obtain rfl : side' = side := Option.some.inj ((keep side' earlier).symm.trans chosen)
          exact ih.2 side' earlier
      exact hedge_keeps_hedge_behind hedge (dca_keeps_hedge_behind chunk dca before)

theorem marketRun_hedge_cost_lt_default : ∃ eng acct,
    MarketRun StrategyConfig.default sampleMarket .threshold35 eng acct ∧ eng.primary = some .up ∧
    0 < StrategyConfig.default.buyChunkUsd ∧
    (acct.position sampleMarket.downToken).costUsd <
      (acct.position sampleMarket.upToken).costUsd + StrategyConfig.default.buyChunkUsd := by
  obtain ⟨eng, acct, run, primary⟩ := entry_tick_marketRun
  have chunk : 0 < StrategyConfig.default.buyChunkUsd := by norm_num [StrategyConfig.default]
  exact ⟨eng, acct, run, primary, chunk, (marketRun_hedge_cost_lt chunk run).2 .up primary⟩

/-- **A caught-up hedge can pay out less than the two sides cost**: `UP` fills mostly at 95 cents
and `DOWN` at 5, so with a dollar on each side `UP` holds about 1.12 shares for the 2 dollars. -/
theorem marketRun_hedged_payout_below_cost : ∃ eng acct,
    MarketRun StrategyConfig.default sampleMarket .threshold35 eng acct ∧ eng.primary = some .up ∧
    (acct.position "U").costUsd ≤ (acct.position "D").costUsd + epsilon ∧
    min (acct.position "U").shares (acct.position "D").shares <
      (acct.position "U").costUsd + (acct.position "D").costUsd := by
  obtain ⟨eng, acct, _, run, passes⟩ := exists_of_runTicks (freshAccount_marketRun _ _ 100)
    (show (runTicks StrategyConfig.default sampleMarket 10 (new StrategyConfig.default .threshold35)
      (freshAccount 100) [bookPair [(0.30, 0.1), (0.95, 100)] [(0.05, 1000)]]).any
      (fun r => decide (r.1.primary = some .up) &&
        decide ((r.2.1.position "U").costUsd ≤ (r.2.1.position "D").costUsd + epsilon) &&
        decide (min (r.2.1.position "U").shares (r.2.1.position "D").shares <
          (r.2.1.position "U").costUsd + (r.2.1.position "D").costUsd)) = true
      by with_unfolding_all decide)
  simp only [Bool.and_eq_true, decide_eq_true_eq] at passes
  exact ⟨eng, acct, run, passes.1.1, passes.1.2, passes.2⟩

end Balance

/-! ### The combined-price cap -/

section SumCap

variable {cfg : StrategyConfig} {mkt : ActiveMarket} {fuel : ℕ} {eng eng' : UpDownStrategyEngine}
  {store : OrderBookStore} {acct acct' : PaperAccount} {fills : List Fill}

/-- **`sum_cap_dollars` bounds a hedge fill's own price**: every hedge fill of a `threshold35` tick
is of the other side's token, and with the primary position at the end of the tick, which the
hedge buys leave as they found it, its price and the primary average stay below the cap. -/
theorem step_hedge_fill_below_sum_cap (mode : eng.mode = .threshold35)
    (result : step cfg mkt fuel eng store acct = some (eng', acct', fills)) :
    ∀ f ∈ fills, f.note = "hedge_chunk_sumcap_ok" → ∃ side, eng'.primary = some side ∧
      f.tokenId = mkt.token side.other ∧
      (acct'.position (mkt.token side)).avgPrice + f.price < cfg.sumCapDollars := by
  intro f member hedgeNote
  obtain ⟨-, quiet, buys⟩ := step_threshold35 mode result
  rcases primary : eng'.primary with _ | side
  · simp [(quiet primary).2] at member
  · obtain ⟨acct1, dcaFills, hedgeFills, rfl, dca, hedge⟩ := buys side primary
    have kept : ∀ a t ob note, hedgeChunk cfg (mkt.token side) (mkt.token side.other) a t ob note →
        t ≠ mkt.token side := fun _ _ _ _ permit => hedgeChunk_ne permit
    rcases List.mem_append.mp member with early | late
    · obtain ⟨-, -, -, ⟨-, dcaNote, -⟩, -⟩ :=
        dca.fill_spec (fun _ => True) (fun _ _ _ _ _ _ _ _ _ => trivial) trivial f early
      rw [hedgeNote] at dcaNote
      cases side <;> simp [Side.label] at dcaNote
    · obtain ⟨before, ob, same, ⟨token, -, -, -, capOk⟩, price⟩ :=
        hedge.fill_spec (fun a => a.position (mkt.token side) = acct1.position (mkt.token side))
          (fun _ _ _ _ _ _ permit bought same =>
            (maybeBuy_position_of_ne bought (kept _ _ _ _ permit).symm).trans same)
          rfl f late
      refine ⟨side, rfl, token, ?_⟩
      rw [hedge.position_eq kept, ← same, price]
      exact capOk

theorem step_hedge_fill_below_sum_cap_default : ∃ eng acct fills,
    (new StrategyConfig.default .threshold35).mode = .threshold35 ∧
    step StrategyConfig.default sampleMarket 10 (new StrategyConfig.default .threshold35)
      (bookPair [(0.30, 100)] [(0.30, 100)]) (freshAccount 100) = some (eng, acct, fills) ∧
    (∃ f ∈ fills, f.note = "hedge_chunk_sumcap_ok") ∧
    ∀ f ∈ fills, f.note = "hedge_chunk_sumcap_ok" → ∃ side, eng.primary = some side ∧
      f.tokenId = sampleMarket.token side.other ∧
      (acct.position (sampleMarket.token side)).avgPrice + f.price <
        StrategyConfig.default.sumCapDollars := by
  obtain ⟨eng, acct, fills, result, -, hedged⟩ := entry_tick
  exact ⟨eng, acct, fills, rfl, result, hedged, step_hedge_fill_below_sum_cap rfl result⟩

/-- **The hedge position's average is not what `sum_cap_dollars` bounds**: a thin `UP` book makes
the second tick's DCA chunk raise the primary average to about 0.45, after which a hedge chunk
at about 0.48 is admitted and leaves the two positions' averages summing to about 1.01. -/
theorem hedge_fill_over_sum_cap : ∃ eng acct eng' acct' fills,
    MarketRun StrategyConfig.default sampleMarket .threshold35 eng acct ∧
    step StrategyConfig.default sampleMarket 10 eng
      (bookPair [(0.30, 0.2), (1.0, 100)] [(0.35, 1), (0.6, 100)]) acct =
      some (eng', acct', fills) ∧
    eng'.primary = some .up ∧ fills.getLast?.map Fill.note = some "hedge_chunk_sumcap_ok" ∧
    StrategyConfig.default.sumCapDollars ≤
      (acct'.position "U").avgPrice + (acct'.position "D").avgPrice := by
  obtain ⟨eng, acct, _, run, passes⟩ := exists_of_runTicks (freshAccount_marketRun _ _ 100)
    (show (runTicks StrategyConfig.default sampleMarket 10 (new StrategyConfig.default .threshold35)
      (freshAccount 100) [bookPair [(0.30, 100)] [(0.35, 0.5), (0.85, 100)]]).any
      (fun r => (step StrategyConfig.default sampleMarket 10 r.1
        (bookPair [(0.30, 0.2), (1.0, 100)] [(0.35, 1), (0.6, 100)]) r.2.1).any fun r' =>
          decide (r'.1.primary = some .up) &&
          decide (r'.2.2.getLast?.map Fill.note = some "hedge_chunk_sumcap_ok") &&
          decide (StrategyConfig.default.sumCapDollars ≤
            (r'.2.1.position "U").avgPrice + (r'.2.1.position "D").avgPrice)) = true
      by with_unfolding_all decide)
  obtain ⟨eng', acct', fills, result, over⟩ := exists_of_step passes
  simp only [Bool.and_eq_true, decide_eq_true_eq] at over
  exact ⟨eng, acct, eng', acct', fills, run, result, over.1.1, over.1.2, over.2⟩

end SumCap

/-! ### A hedge loop that never stops -/

section Spin

variable {cfg : StrategyConfig} {mkt : ActiveMarket}

/-- **With its checks passing and cash short of a chunk plus `require_free_cash`, the hedge loop
never stops**: `_maybe_buy` skips the buy without a word, so each pass checks what the last one
did. -/
theorem hedgeLoop_spins {primaryToken hedgeToken : String} {hedgeOb : OrderBook}
    {acct : PaperAccount}
    (behind : (acct.position hedgeToken).costUsd + epsilon < (acct.position primaryToken).costUsd)
    (under : (acct.position hedgeToken).costUsd < cfg.maxSideSpendUsd)
    (fills : 0 < (consumeAsksForBuy hedgeOb cfg.buyChunkUsd).1 ∧
      0 < (consumeAsksForBuy hedgeOb cfg.buyChunkUsd).2.2)
    (capOk : (acct.position primaryToken).avgPrice + (consumeAsksForBuy hedgeOb cfg.buyChunkUsd).2.1 <
      cfg.sumCapDollars)
    (short : acct.cash < cfg.buyChunkUsd + cfg.requireFreeCash) (fuel : ℕ) :
    hedgeLoop cfg mkt primaryToken hedgeToken hedgeOb fuel (acct.position primaryToken)
      (acct.position hedgeToken) acct = none := by
  have skipped : maybeBuy cfg mkt hedgeToken hedgeOb acct cfg.buyChunkUsd "hedge_chunk_sumcap_ok" =
      (acct, none) := by
    simp [maybeBuy, short]
  induction fuel with
  | zero => rfl
  | succ fuel ih =>
    rcases estimate : consumeAsksForBuy hedgeOb cfg.buyChunkUsd with ⟨estShares, estAvg, estSpent⟩
    rw [estimate] at fills capOk
    simp only [hedgeLoop, estimate, skipped, behind, not_le.mpr under, not_le.mpr fills.1,
      not_le.mpr fills.2, not_le.mpr capOk, or_self, if_true, if_false, ih, Option.map_none']

/-- **A tick that leaves too little cash never returns**: with 1.06 in cash and asks of 30 cents
on both sides, the entry chunk of `UP` leaves 6 cents, short of a chunk plus `require_free_cash`,
while every check of the hedge loop passes. -/
theorem step_spins_without_cash (fuel : ℕ) :
    step StrategyConfig.default sampleMarket fuel (new StrategyConfig.default .threshold35)
      (bookPair [(0.30, 100)] [(0.30, 100)]) (freshAccount 1.06) = none := by
  show stepThreshold35 StrategyConfig.default sampleMarket fuel
    (new StrategyConfig.default .threshold35) { bids := [(0.01, 1)], asks := [(0.30, 100)] }
    { bids := [(0.01, 1)], asks := [(0.30, 100)] } 0.30 0.30 (freshAccount 1.06) = none
  have chosen : (choosePrimary StrategyConfig.default (new StrategyConfig.default .threshold35)
      0.30 0.30).primary = some .up := by
    with_unfolding_all decide
  -- The entry chunk of `UP` leaves 6 cents in cash, and every check of the hedge loop passes.
  obtain ⟨⟨eng2, acct1, fills1⟩, dca, primary2, bought, behind, under, capOk, short⟩ : ∃ r,
      dcaIfTrigger StrategyConfig.default sampleMarket
        (choosePrimary StrategyConfig.default (new StrategyConfig.default .threshold35) 0.30 0.30)
        .up sampleMarket.upToken { bids := [(0.01, 1)], asks := [(0.30, 100)] } 0.30
        (freshAccount 1.06) = r ∧
      r.1.primary = some .up ∧ 0 < (r.2.1.position sampleMarket.upToken).costUsd ∧
      (r.2.1.position sampleMarket.downToken).costUsd + epsilon <
        (r.2.1.position sampleMarket.upToken).costUsd ∧
      (r.2.1.position sampleMarket.downToken).costUsd < StrategyConfig.default.maxSideSpendUsd ∧
      (r.2.1.position sampleMarket.upToken).avgPrice + (consumeAsksForBuy
        { bids := [(0.01, 1)], asks := [(0.30, 100)] } StrategyConfig.default.buyChunkUsd).2.1 <
        StrategyConfig.default.sumCapDollars ∧
      r.2.1.cash < StrategyConfig.default.buyChunkUsd + StrategyConfig.default.requireFreeCash :=
    ⟨_, rfl, by with_unfolding_all decide⟩
  dsimp only at primary2 bought behind under capOk short
  have chunkFills : 0 < (consumeAsksForBuy { bids := [(0.01, 1)], asks := [(0.30, 100)] }
      StrategyConfig.default.buyChunkUsd).1 ∧ 0 < (consumeAsksForBuy
        { bids := [(0.01, 1)], asks := [(0.30, 100)] } StrategyConfig.default.buyChunkUsd).2.2 := by
    with_unfolding_all decide
  have cheap : ¬ StrategyConfig.default.entryAskCents / 100.0 < 0.30 := by
    with_unfolding_all decide
  simp only [stepThreshold35, chosen, dca, primary2, bought, if_true, hedgeChunks, cheap, if_false,
    hedgeLoop_spins behind under chunkFills capOk short, Option.map_none']

end Spin

end PaperTrader
