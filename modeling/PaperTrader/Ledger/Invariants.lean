/-
**The ledger: what buys and settlements do to an account, over whole runs.**

Every account mutation of the program is a `_maybe_buy` or a `settle_market`
(`UpDownStrategyEngine.step_buys`). From one lemma per operation:

* `maybeBuy_moves` — a buy moves exactly its fill's dollars from cash to the bought token's cost;
* `settleMarket_total` — a settlement of a market with two distinct tokens changes cash plus
  cost by exactly its pnl;
* `LedgerRun` — any sequence of ticks in either mode and settlements on one account;
* `ledgerRun_total` — over such a run, cash plus cost moves by the sum of the logged pnls;
* `AccountWf` and `maybeBuy_wf`, `step_wf`, `settleMarket_wf` — cash never negative, and every
  position with no negative shares or cost and shares exactly when cost.
-/

import PaperTrader.Engine.Step
import PaperTrader.Settle.Settle

namespace PaperTrader

/-! ### One buy -/

section Credit

variable (acct : PaperAccount) (tokenId : String) (shares spent : ℚ)

@[simp] theorem PaperAccount.credit_cash : (acct.credit tokenId shares spent).cash = acct.cash - spent :=
  rfl

@[simp] theorem PaperAccount.credit_symbol : (acct.credit tokenId shares spent).symbol = acct.symbol :=
  rfl

theorem PaperAccount.credit_position (t : String) :
    (acct.credit tokenId shares spent).position t =
      if t = tokenId then
        ⟨(acct.position tokenId).shares + shares, (acct.position tokenId).costUsd + spent⟩
      else acct.position t := by
  simp [PaperAccount.credit, PaperAccount.position, Dict.getD_insert]

/-- **A credit moves dollars from cash to cost:** cash plus cost is unchanged. -/
theorem PaperAccount.credit_total : (acct.credit tokenId shares spent).total = acct.total := by
  simp only [PaperAccount.total, PaperAccount.credit,
    Dict.sumBy_insert Position.costUsd _ _ _ ({} : Position) rfl]
  simp only [PaperAccount.position]
  ring

end Credit

namespace UpDownStrategyEngine

variable {cfg : StrategyConfig} {mkt : ActiveMarket} {tokenId : String} {ob : OrderBook}
  {acct acct' : PaperAccount} {usd : ℚ} {note : String} {fill : Option Fill}

/-- **A buy moves exactly its fill's dollars from cash to the bought token's cost** and leaves every
other token alone; a buy that logs nothing changes nothing. -/
theorem maybeBuy_moves (result : maybeBuy cfg mkt tokenId ob acct usd note = (acct', fill)) :
    (fill = none → acct' = acct) ∧
      ∀ f, fill = some f → f.tokenId = tokenId ∧ acct'.cash = acct.cash - f.usd ∧
        (acct'.position tokenId).costUsd = (acct.position tokenId).costUsd + f.usd ∧
        (acct'.position tokenId).shares = (acct.position tokenId).shares + f.shares ∧
        ∀ t, t ≠ tokenId → acct'.position t = acct.position t := by
  rcases maybeBuy_cases result with ⟨rfl, rfl⟩ | ⟨_, _, _, _, rfl, rfl⟩
  · simp
  · refine ⟨by simp, fun f same => ?_⟩
    obtain rfl := Option.some.inj same.symm
    simp +contextual [PaperAccount.credit_position]

/-- A logged fill spends a positive amount within the budget. -/
theorem maybeBuy_fill_usd (result : maybeBuy cfg mkt tokenId ob acct usd note = (acct', fill))
    {f : Fill} (logged : fill = some f) : 0 < f.usd ∧ f.usd ≤ usd := by
  rcases maybeBuy_cases result with ⟨-, rfl⟩ | ⟨budget, -, -, paid, -, rfl⟩
  · cases logged
  · obtain rfl := Option.some.inj logged
    exact ⟨paid, consumeAsksForBuy_spent_le ob budget.le⟩

theorem maybeBuy_position_of_ne (result : maybeBuy cfg mkt tokenId ob acct usd note = (acct', fill))
    {t : String} (other : t ≠ tokenId) : acct'.position t = acct.position t := by
  rcases fill with _ | f
  · rw [(maybeBuy_moves result).1 rfl]
  · exact ((maybeBuy_moves result).2 f rfl).2.2.2.2 t other

/-- After a buy a token's position is unchanged, or it is the bought token and its cost rose by a
positive amount within the budget. -/
theorem maybeBuy_cost (result : maybeBuy cfg mkt tokenId ob acct usd note = (acct', fill))
    (t : String) :
    acct'.position t = acct.position t ∨
      t = tokenId ∧ (acct.position t).costUsd < (acct'.position t).costUsd ∧
        (acct'.position t).costUsd ≤ (acct.position t).costUsd + usd := by
  by_cases bought : t = tokenId
  · subst bought
    rcases fill with _ | f
    · exact .inl (by rw [(maybeBuy_moves result).1 rfl])
    · obtain ⟨-, -, cost, -⟩ := (maybeBuy_moves result).2 f rfl
      obtain ⟨paid, within⟩ := maybeBuy_fill_usd result rfl
      exact .inr ⟨rfl, by linarith, by linarith⟩
  · exact .inl (maybeBuy_position_of_ne result bought)

theorem maybeBuy_total (result : maybeBuy cfg mkt tokenId ob acct usd note = (acct', fill)) :
    acct'.total = acct.total := by
  rcases maybeBuy_cases result with ⟨rfl, -⟩ | ⟨_, _, _, _, rfl, -⟩
  · rfl
  · exact PaperAccount.credit_total _ _ _ _

end UpDownStrategyEngine

/-! ### Settlement -/

section Settlement

variable (cfg : StrategyConfig) (mkt : ActiveMarket) (startWait : ℚ)
  (polls : List (ℚ × OrderBookStore)) (final : OrderBookStore) (acct : PaperAccount)

/-- **A settlement of a market with two distinct tokens changes cash plus cost by exactly its
pnl.** -/
theorem settleMarket_total (distinct : mkt.upToken ≠ mkt.downToken) :
    (settleMarket cfg mkt startWait polls final acct).1.total =
      acct.total + (settleMarket cfg mkt startWait polls final acct).2.pnl := by
  simp only [settleMarket, PaperAccount.total, PaperAccount.position,
    Dict.sumBy_insert Position.costUsd _ _ _ ({} : Position) rfl,
    Dict.getD_insert_ne _ _ _ distinct.symm]
  norm_num
  ring

end Settlement

/-! ### Runs of the ledger -/

/-- One account mutation of the program: a tick of the engine in either mode, from any engine
state, on any books and with any fuel, or the settlement of a market, which logs its result. -/
inductive LedgerStep (cfg : StrategyConfig) : PaperAccount → PaperAccount → List MarketResult → Prop
  | tick {acct acct' : PaperAccount} (mkt : ActiveMarket) (fuel : ℕ)
      (eng eng' : UpDownStrategyEngine) (store : OrderBookStore) (fills : List Fill) :
      UpDownStrategyEngine.step cfg mkt fuel eng store acct = some (eng', acct', fills) →
      LedgerStep cfg acct acct' []
  | settle (acct : PaperAccount) (mkt : ActiveMarket) (startWait : ℚ)
      (polls : List (ℚ × OrderBookStore)) (final : OrderBookStore) :
      LedgerStep cfg acct (settleMarket cfg mkt startWait polls final acct).1
        [(settleMarket cfg mkt startWait polls final acct).2]

/-- A run of such mutations on one account, with the results it logs in order. -/
inductive LedgerRun (cfg : StrategyConfig) : PaperAccount → PaperAccount → List MarketResult → Prop
  | done (acct : PaperAccount) : LedgerRun cfg acct acct []
  | step {acct acct' acct'' : PaperAccount} {results results' : List MarketResult} :
      LedgerStep cfg acct acct' results → LedgerRun cfg acct' acct'' results' →
      LedgerRun cfg acct acct'' (results ++ results')

theorem step_total {cfg : StrategyConfig} {mkt : ActiveMarket} {fuel : ℕ}
    {eng eng' : UpDownStrategyEngine} {store : OrderBookStore} {acct acct' : PaperAccount}
    {fills : List Fill}
    (result : UpDownStrategyEngine.step cfg mkt fuel eng store acct = some (eng', acct', fills)) :
    acct'.total = acct.total :=
  (UpDownStrategyEngine.step_buys result).2.preserves (fun a => a.total = acct.total)
    (fun _ _ _ _ _ _ _ bought same => (UpDownStrategyEngine.maybeBuy_total bought).trans same) rfl

theorem ledgerStep_total {cfg : StrategyConfig} {acct acct' : PaperAccount}
    {results : List MarketResult} (step : LedgerStep cfg acct acct' results)
    (distinct : ∀ r ∈ results, r.upToken ≠ r.downToken) :
    acct'.total = acct.total + (results.map MarketResult.pnl).sum := by
  cases step with
  | tick _ _ _ _ _ _ result => simpa using step_total result
  | settle mkt startWait polls final =>
    obtain ⟨-, -, -, -, upToken, downToken, -⟩ := settleMarket_spec cfg mkt startWait polls final acct
    have two := distinct _ (List.mem_singleton_self _)
    rw [upToken, downToken] at two
    simpa using settleMarket_total cfg mkt startWait polls final acct two

/-- **Over a run, cash plus cost moves by exactly the sum of the logged pnls**, when every settled
market has two distinct tokens. -/
theorem ledgerRun_total {cfg : StrategyConfig} {acct acct' : PaperAccount}
    {results : List MarketResult} (run : LedgerRun cfg acct acct' results)
    (distinct : ∀ r ∈ results, r.upToken ≠ r.downToken) :
    acct'.total = acct.total + (results.map MarketResult.pnl).sum := by
  induction run with
  | done => simp
  | step first _ ih =>
    rw [ih fun r member => distinct r (List.mem_append_right _ member),
      ledgerStep_total first fun r member => distinct r (List.mem_append_left _ member)]
    simp only [List.map_append, List.sum_append]
    ring

/-- **Cash plus cost is conserved up to the logged pnls.** Every buy moves exactly its fill's
dollars from cash to the bought token's cost; every settlement credits cash with the winner's
shares, sets the market's two tokens to `(0, 0)`, leaves every other token alone and reports
`pnl = redeem − (up_cost + down_cost)`; so over any run of ticks and settlements whose settled
markets have two distinct tokens, cash plus cost moves by exactly the sum of the pnls. The books
are the engine's, with finite prices and sizes (`OrderBook`); a book holding a `nan` is outside
this result. -/
theorem ledger_cash_plus_cost (cfg : StrategyConfig) :
    (∀ acct acct' results, LedgerRun cfg acct acct' results →
      (∀ r ∈ results, r.upToken ≠ r.downToken) →
      acct'.total = acct.total + (results.map MarketResult.pnl).sum) ∧
    (∀ mkt tokenId ob acct usd note acct' f,
      UpDownStrategyEngine.maybeBuy cfg mkt tokenId ob acct usd note = (acct', some f) →
      f.tokenId = tokenId ∧ acct'.cash = acct.cash - f.usd ∧
        (acct'.position tokenId).costUsd = (acct.position tokenId).costUsd + f.usd) ∧
    (∀ mkt startWait polls final acct,
      let settled := settleMarket cfg mkt startWait polls final acct
      settled.1.cash = acct.cash + settled.2.redeemed ∧
        settled.1.position mkt.upToken = ⟨0, 0⟩ ∧ settled.1.position mkt.downToken = ⟨0, 0⟩ ∧
        (∀ t, t ≠ mkt.upToken → t ≠ mkt.downToken → settled.1.position t = acct.position t) ∧
        settled.2.pnl = settled.2.redeemed -
          ((acct.position mkt.upToken).costUsd + (acct.position mkt.downToken).costUsd)) := by
  refine ⟨fun _ _ _ run distinct => ledgerRun_total run distinct, fun _ _ _ _ _ _ _ f bought => ?_,
    fun mkt startWait polls final acct => ?_⟩
  · obtain ⟨token, cash, cost, -⟩ := (UpDownStrategyEngine.maybeBuy_moves bought).2 f rfl
    exact ⟨token, cash, cost⟩
  · obtain ⟨-, -, upCost, downCost, -, -, cash, up, down, others, pnl, -⟩ :=
      settleMarket_spec cfg mkt startWait polls final acct
    exact ⟨cash, up, down, others, upCost ▸ downCost ▸ pnl⟩

/-- A market whose two token ids coincide, which `discover_next_market` does not reject, breaks
the identity: settlement removes the token's cost once but subtracts it twice in the pnl. -/
theorem ledger_cash_plus_cost_degenerate_market :
    let acct : PaperAccount := ⟨"BTC", 99, ⟨[("X", ⟨2, 1⟩)], by decide⟩⟩
    let mkt : ActiveMarket := ⟨"BTC", "btc-updown-15m-0", "c", 0, "X", "X"⟩
    let settled := settleMarket StrategyConfig.default mkt 0 [] ⟨Dict.empty⟩ acct
    LedgerRun StrategyConfig.default acct settled.1 [settled.2] ∧
      settled.1.total ≠ acct.total + ([settled.2].map MarketResult.pnl).sum := by
  intro acct mkt settled
  refine ⟨by simpa using LedgerRun.step (LedgerStep.settle acct mkt 0 [] ⟨Dict.empty⟩) (.done _), ?_⟩
  with_unfolding_all decide

/-! ### Well-formed accounts -/

/-- A position as the strategy keeps it: no negative shares or cost, and shares exactly when
cost. -/
structure PositionWf (pos : Position) : Prop where
  shares_nonneg : 0 ≤ pos.shares
  cost_nonneg : 0 ≤ pos.costUsd
  shares_pos_iff : 0 < pos.shares ↔ 0 < pos.costUsd

/-- An account as the strategy keeps it: cash not negative and every position well formed. -/
structure AccountWf (acct : PaperAccount) : Prop where
  cash_nonneg : 0 ≤ acct.cash
  positions_wf : ∀ entry ∈ acct.positions.entries, PositionWf entry.2

theorem PositionWf.zero : PositionWf ⟨0, 0⟩ := ⟨le_rfl, le_rfl, Iff.rfl⟩

theorem AccountWf.position {acct : PaperAccount} (wf : AccountWf acct) (t : String) :
    PositionWf (acct.position t) :=
  acct.positions.getD_of_forall t {} wf.positions_wf PositionWf.zero

/-- A purchase of positive shares for positive dollars keeps a position well formed. -/
theorem PositionWf.add {pos : Position} (wf : PositionWf pos) {shares spent : ℚ}
    (bought : 0 < shares) (paid : 0 < spent) :
    PositionWf ⟨pos.shares + shares, pos.costUsd + spent⟩ :=
  ⟨show 0 ≤ pos.shares + shares by linarith [wf.shares_nonneg],
    show 0 ≤ pos.costUsd + spent by linarith [wf.cost_nonneg],
    ⟨fun _ => show 0 < pos.costUsd + spent by linarith [wf.cost_nonneg],
      fun _ => show 0 < pos.shares + shares by linarith [wf.shares_nonneg]⟩⟩

namespace UpDownStrategyEngine

variable {cfg : StrategyConfig} {mkt : ActiveMarket}

/-- **A buy keeps the account well formed and, when it takes effect, leaves at least
`require_free_cash` in cash.** -/
theorem maybeBuy_wf (free : 0 ≤ cfg.requireFreeCash) {tokenId : String} {ob : OrderBook}
    {acct acct' : PaperAccount} {usd : ℚ} {note : String} {fill : Option Fill}
    (result : maybeBuy cfg mkt tokenId ob acct usd note = (acct', fill)) (wf : AccountWf acct) :
    AccountWf acct' ∧ (fill.isSome → cfg.requireFreeCash ≤ acct'.cash) := by
  rcases maybeBuy_cases result with ⟨rfl, rfl⟩ | ⟨budget, funds, bought, paid, rfl, rfl⟩
  · exact ⟨wf, by simp⟩
  · have within := consumeAsksForBuy_spent_le ob budget.le
    have spare : cfg.requireFreeCash ≤ (acct.credit tokenId (consumeAsksForBuy ob usd).1
        (consumeAsksForBuy ob usd).2.2).cash := by
      simp only [PaperAccount.credit_cash]
      linarith
    exact ⟨⟨le_trans free spare, Dict.forall_insert wf.positions_wf
      ((wf.position tokenId).add bought paid)⟩, fun _ => spare⟩

theorem step_wf (free : 0 ≤ cfg.requireFreeCash) {fuel : ℕ} {eng eng' : UpDownStrategyEngine}
    {store : OrderBookStore} {acct acct' : PaperAccount} {fills : List Fill}
    (result : step cfg mkt fuel eng store acct = some (eng', acct', fills)) (wf : AccountWf acct) :
    AccountWf acct' :=
  (step_buys result).2.preserves AccountWf
    (fun _ _ _ _ _ _ _ bought before => (maybeBuy_wf free bought before).1) wf

end UpDownStrategyEngine

theorem settleMarket_wf (cfg : StrategyConfig) (mkt : ActiveMarket) (startWait : ℚ)
    (polls : List (ℚ × OrderBookStore)) (final : OrderBookStore) {acct : PaperAccount}
    (wf : AccountWf acct) : AccountWf (settleMarket cfg mkt startWait polls final acct).1 := by
  obtain ⟨upShares, downShares, -, -, -, -, cash, -⟩ :=
    settleMarket_spec cfg mkt startWait polls final acct
  have redeemed : 0 ≤ (settleMarket cfg mkt startWait polls final acct).2.redeemed := by
    unfold MarketResult.redeemed
    split_ifs
    · exact upShares ▸ (wf.position _).shares_nonneg
    · exact downShares ▸ (wf.position _).shares_nonneg
  refine ⟨by rw [cash]; linarith [wf.cash_nonneg], ?_⟩
  have zero : PositionWf ⟨0.0, 0.0⟩ := by convert PositionWf.zero <;> norm_num
  exact Dict.forall_insert (Dict.forall_insert wf.positions_wf zero) zero

/-- **Every account mutation keeps the account well formed**: cash not negative, and every
position with no negative shares or cost and with shares exactly when cost. This holds of each
buy (and a buy that takes effect leaves at least `require_free_cash` in cash), of each tick in
either mode, on any books the engine reads, and of each settlement. Those books have finite
prices and sizes (`OrderBook`): a feed book with a `nan` is outside this result. -/
theorem accountWf_preserved (cfg : StrategyConfig) (free : 0 ≤ cfg.requireFreeCash) :
    (∀ mkt tokenId ob acct usd note acct' fill,
      UpDownStrategyEngine.maybeBuy cfg mkt tokenId ob acct usd note = (acct', fill) →
      AccountWf acct → AccountWf acct' ∧ (fill.isSome → cfg.requireFreeCash ≤ acct'.cash)) ∧
    (∀ mkt fuel eng store acct eng' acct' fills,
      UpDownStrategyEngine.step cfg mkt fuel eng store acct = some (eng', acct', fills) →
      AccountWf acct → AccountWf acct') ∧
    (∀ mkt startWait polls final acct,
      AccountWf acct → AccountWf (settleMarket cfg mkt startWait polls final acct).1) :=
  ⟨fun _ _ _ _ _ _ _ _ bought wf => UpDownStrategyEngine.maybeBuy_wf free bought wf,
    fun _ _ _ _ _ _ _ _ ticked wf => UpDownStrategyEngine.step_wf free ticked wf,
    fun mkt startWait polls final _ wf => settleMarket_wf cfg mkt startWait polls final wf⟩

/-- Under the default configuration, which keeps `0.05` free, from a hundred dollars: the entry
chunk of `U` at 30 cents takes effect and leaves the account well formed with the free cash
kept; the first `threshold35` tick on `U` and `D` at 30 cents buys both and leaves it well formed;
and settling it keeps it well formed. -/
theorem accountWf_preserved_default :
    0 ≤ StrategyConfig.default.requireFreeCash ∧
      (∃ acct' fill, UpDownStrategyEngine.maybeBuy StrategyConfig.default
          ⟨"BTC", "btc-updown-15m-1", "c", 1000, "U", "D"⟩ "U" { bids := [(0.01, 1)], asks := [(0.30, 100)] }
          ⟨"BTC", 100, Dict.empty⟩ 1 "UP_entry_or_dca" = (acct', some fill) ∧
        AccountWf acct' ∧ StrategyConfig.default.requireFreeCash ≤ acct'.cash) ∧
      (∃ eng' acct' fills, UpDownStrategyEngine.step StrategyConfig.default
          ⟨"BTC", "btc-updown-15m-1", "c", 1000, "U", "D"⟩ 10
          (UpDownStrategyEngine.new StrategyConfig.default .threshold35)
          ⟨⟨[("U", { bids := [(0.01, 1)], asks := [(0.30, 100)] }),
            ("D", { bids := [(0.01, 1)], asks := [(0.30, 100)] })], by simp⟩⟩
          ⟨"BTC", 100, Dict.empty⟩ = some (eng', acct', fills) ∧ fills ≠ [] ∧ AccountWf acct') ∧
      AccountWf (settleMarket StrategyConfig.default ⟨"BTC", "btc-updown-15m-0", "c", 0, "U", "D"⟩
        0 [] ⟨Dict.empty⟩ ⟨"BTC", 100, Dict.empty⟩).1 := by
  have free : 0 ≤ StrategyConfig.default.requireFreeCash := by
    norm_num [StrategyConfig.default]
  have start : AccountWf ⟨"BTC", 100, Dict.empty⟩ := ⟨by norm_num, by simp [Dict.empty]⟩
  have preserved := accountWf_preserved StrategyConfig.default free
  have bought : (UpDownStrategyEngine.maybeBuy StrategyConfig.default
      ⟨"BTC", "btc-updown-15m-1", "c", 1000, "U", "D"⟩ "U" { bids := [(0.01, 1)], asks := [(0.30, 100)] }
      ⟨"BTC", 100, Dict.empty⟩ 1 "UP_entry_or_dca").2.isSome = true := by
    with_unfolding_all decide
  have traded : (UpDownStrategyEngine.step StrategyConfig.default
      ⟨"BTC", "btc-updown-15m-1", "c", 1000, "U", "D"⟩ 10
      (UpDownStrategyEngine.new StrategyConfig.default .threshold35)
      ⟨⟨[("U", { bids := [(0.01, 1)], asks := [(0.30, 100)] }),
        ("D", { bids := [(0.01, 1)], asks := [(0.30, 100)] })], by simp⟩⟩
      ⟨"BTC", 100, Dict.empty⟩).any (fun r => !r.2.2.isEmpty) = true := by
    with_unfolding_all decide
  refine ⟨free, ?_, ?_, preserved.2.2 _ 0 [] _ _ start⟩
  · rcases buy : UpDownStrategyEngine.maybeBuy StrategyConfig.default
        ⟨"BTC", "btc-updown-15m-1", "c", 1000, "U", "D"⟩ "U"
        { bids := [(0.01, 1)], asks := [(0.30, 100)] } ⟨"BTC", 100, Dict.empty⟩ 1 "UP_entry_or_dca"
      with ⟨acct', _ | fill⟩
    · simp [buy] at bought
    · obtain ⟨wf, spare⟩ := preserved.1 _ _ _ _ _ _ _ _ buy start
      exact ⟨acct', fill, rfl, wf, spare rfl⟩
  · rcases ticked : UpDownStrategyEngine.step StrategyConfig.default
        ⟨"BTC", "btc-updown-15m-1", "c", 1000, "U", "D"⟩ 10
        (UpDownStrategyEngine.new StrategyConfig.default .threshold35)
        ⟨⟨[("U", { bids := [(0.01, 1)], asks := [(0.30, 100)] }),
          ("D", { bids := [(0.01, 1)], asks := [(0.30, 100)] })], by simp⟩⟩
        ⟨"BTC", 100, Dict.empty⟩ with _ | ⟨eng', acct', fills⟩
    · simp [ticked] at traded
    · exact ⟨eng', acct', fills, rfl, by simpa [ticked] using traded,
        preserved.2.1 _ _ _ _ _ _ _ _ ticked start⟩

end PaperTrader
