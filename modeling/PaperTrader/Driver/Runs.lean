/-
**What every run of `main` keeps, whichever of its writes raise.**

`mainIteration_cases` says once what an iteration does to the driver, and `Driver.discover_cases`
what its discovery block does. `DriverRun.conserves` says once how a quantity of an account that
the entries account for (every tick moves it by what its fills say, every settlement by what its
result says) stays what it was less the entries, those whose rows were written (`Driver.log`) and
those whose write raised (`Driver.lost`) together; `DriverRun.reconciles` turns that into what the
files hold, each float to six decimals (`LogEntry.row`), within a millionth a row. From them, over
every run of `main` from its start:

* `DriverRun.total_sub_logged` — for every symbol with an account, cash plus cost has moved by the
  `totalChange`s of the symbol's results in `results.csv` and of those whose `log_result` raised:
  the engine's buys only move dollars between cash and cost, and a settlement moves it by its
  result's pnl, plus, for a market whose two tokens coincide, the one position's cost, which the
  pnl subtracts twice and the settlement zeroes once (`settleMarket_total_change`);
* `DriverRun.cash_sub_logged` — cash has moved by the dollars of the symbol's fills and the shares
  its results redeemed, those in the files and those lost;
* `DriverRun.position_sub_logged` — so has each position in each token, shares and cost: the
  symbol's fills of the token added to it, and each result took away the position it recorded
  for the token (`MarketResult.positionOf`), which its settlement zeroed
  (`settleMarket_position_change`);
* `DriverRun.fills_wf` — every fill in the trades log is a `BUY` of positive shares for positive
  dollars, at their average price;
* `DriverRun.cash_floor` — a buy never leaves less than `require_free_cash` in cash and a
  settlement only adds to it, so no account's cash ever drops below the smaller of where it
  started and `require_free_cash`;
* `driverRun_dcaLadder` — the engine's DCA ladder stays on `ladderRung` with at most
  `dca_levels + 1` rungs a side, across every market the run binds: discovery resets it for a new
  market, and each tick moves it by at most one rung (`stepLogged_ladder`);
* `driverRun_meta` — the `meta` that `save_state` writes agrees with the run (`MetaInv`): a bound
  market is its `active_market`, and the last result logged is of its `last_settled` slug;
* `driverRun_bound_symbol` — every market a run binds is of a configured symbol, and of
  `--symbol` when one is given (`Listed`): discovery binds only what `discover_next_market`
  returns, and an iteration keeps that market or unbinds it;
* `driverRun_fails_only_in_step` — so, from accounts for every configured symbol, the lookup
  `accounts[active_market.symbol]` never raises: an iteration that raises out of `main` raises in
  discovery, and one that does not return is one whose tick does not.
-/

import PaperTrader.Driver.Loop

namespace PaperTrader

open UpDownStrategyEngine

/-! ### What the log says -/

/-- The symbol of a log entry: its fill's or its result's. -/
def LogEntry.symbol : LogEntry → String
  | .fill f => f.symbol
  | .result r => r.symbol

/-- What a result moves its account's cash plus cost by: its pnl, and for a market whose two
tokens coincide, the one position's cost, which the pnl subtracts twice and the settlement takes
out of the account once. -/
def MarketResult.totalChange (r : MarketResult) : ℚ :=
  r.pnl + if r.upToken = r.downToken then r.upCost else 0

/-- What an entry moves its account's cash plus cost by: nothing for a fill, which moves dollars
from cash into cost; a result's `totalChange`. -/
def LogEntry.totalChange : LogEntry → ℚ
  | .fill _ => 0
  | .result r => r.totalChange

/-- What an entry moves its account's cash by: a fill's dollars out, a result's redeemed shares
in. -/
def LogEntry.cashChange : LogEntry → ℚ
  | .fill f => -f.usd
  | .result r => r.redeemed

/-- The position a result recorded for token `t`, which its settlement zeroed: the up side's, the
down side's, or none for a token of another market. -/
def MarketResult.positionOf (r : MarketResult) (t : String) : Position :=
  if r.upToken = t then ⟨r.upShares, r.upCost⟩
  else if r.downToken = t then ⟨r.downShares, r.downCost⟩ else ⟨0, 0⟩

/-- What an entry moves the shares held in token `t` by: a fill of `t` adds its shares, a result
takes away the shares it recorded for `t`. -/
def LogEntry.sharesChange (t : String) : LogEntry → ℚ
  | .fill f => if f.tokenId = t then f.shares else 0
  | .result r => -(r.positionOf t).shares

/-- What an entry moves the cost of token `t` by: a fill of `t` adds its dollars, a result takes
away the cost it recorded for `t`. -/
def LogEntry.costChange (t : String) : LogEntry → ℚ
  | .fill f => if f.tokenId = t then f.usd else 0
  | .result r => -(r.positionOf t).costUsd

/-- The sum of `change` over the entries of `sym` in a log. -/
def loggedSum (change : LogEntry → ℚ) (sym : String) (log : List LogEntry) : ℚ :=
  ((log.filter fun e => e.symbol == sym).map change).sum

section Logged

variable (change : LogEntry → ℚ) (sym : String)

@[simp] theorem loggedSum_append (log log' : List LogEntry) :
    loggedSum change sym (log ++ log') = loggedSum change sym log + loggedSum change sym log' := by
  simp [loggedSum]

theorem loggedSum_result (r : MarketResult) :
    loggedSum change sym [.result r] = if r.symbol = sym then change (.result r) else 0 := by
  by_cases same : r.symbol = sym <;> simp [loggedSum, LogEntry.symbol, same]

/-- The fills of one symbol count for it and for no other. -/
theorem loggedSum_fills {fills : List Fill} {s : String} (symbols : ∀ f ∈ fills, f.symbol = s) :
    loggedSum change sym (fills.map .fill) =
      if s = sym then (fills.map fun f => change (.fill f)).sum else 0 := by
  by_cases same : s = sym
  · have all : ∀ e ∈ fills.map LogEntry.fill, (e.symbol == sym) = true := by
      simp only [List.mem_map]
      rintro _ ⟨f, mem, rfl⟩
      simp [LogEntry.symbol, symbols f mem, same]
    simp [loggedSum, List.filter_eq_self.mpr all, same, Function.comp_def]
  · have none : ∀ e ∈ fills.map LogEntry.fill, ¬(e.symbol == sym) = true := by
      simp only [List.mem_map]
      rintro _ ⟨f, mem, rfl⟩
      simp [LogEntry.symbol, symbols f mem, same]
    simp [loggedSum, List.filter_eq_nil_iff.mpr none, same]

end Logged

/-- A fill as `_maybe_buy` logs it: a `BUY` of positive shares for positive dollars, at their
average price. -/
structure Fill.Wf (f : Fill) : Prop where
  side : f.side = "BUY"
  shares_pos : 0 < f.shares
  usd_pos : 0 < f.usd
  price_eq : f.price = f.usd / f.shares

/-- **What chunk buys log**: well-formed fills of the market's symbol, whose dollars are what left
cash. -/
theorem BuysThrough.logged {cfg : StrategyConfig} {mkt : ActiveMarket}
    {allowed : PaperAccount → String → OrderBook → String → Prop} {acct acct' : PaperAccount}
    {fills : List Fill} (through : BuysThrough cfg mkt allowed acct acct' fills) :
    acct'.cash = acct.cash + (fills.map fun f => -f.usd).sum ∧
      ∀ f ∈ fills, f.symbol = mkt.symbol ∧ f.Wf := by
  induction through with
  | done => simp
  | buy tokenId ob note fill _ result _ ih =>
    rcases UpDownStrategyEngine.maybeBuy_cases result with ⟨rfl, rfl⟩ |
      ⟨-, -, filled, paid, rfl, rfl⟩
    · simpa using ih
    · refine ⟨by simp [ih.1]; ring, fun f mem => ?_⟩
      rcases List.mem_append.mp mem with here | later
      · obtain rfl := List.mem_singleton.mp here
        exact ⟨rfl, rfl, filled, paid, consumeAsksForBuy_avg _ _ filled⟩
      · exact ih.2 f later

/-- **Each position moves by its token's logged fills** under chunk buys: their shares and their
dollars. -/
theorem BuysThrough.position_logged {cfg : StrategyConfig} {mkt : ActiveMarket}
    {allowed : PaperAccount → String → OrderBook → String → Prop} {acct acct' : PaperAccount}
    {fills : List Fill} (through : BuysThrough cfg mkt allowed acct acct' fills) (t : String) :
    (acct'.position t).shares =
        (acct.position t).shares + (fills.map fun f => if f.tokenId = t then f.shares else 0).sum ∧
      (acct'.position t).costUsd =
        (acct.position t).costUsd + (fills.map fun f => if f.tokenId = t then f.usd else 0).sum := by
  induction through with
  | done => simp
  | buy tokenId ob note fill _ result _ ih =>
    rcases UpDownStrategyEngine.maybeBuy_cases result with ⟨rfl, rfl⟩ | ⟨-, -, -, -, rfl, rfl⟩
    · simpa using ih
    · rw [ih.1, ih.2, PaperAccount.credit_position]
      by_cases bought : t = tokenId
      · subst bought
        simp only [if_true, Option.toList_some, List.singleton_append, List.map_cons,
          List.sum_cons]
        constructor <;> ring
      · simp [bought, Ne.symm bought]


/-! ### The rows the files hold -/

/-- The number of rows of `sym` in a log. -/
def rowCount (sym : String) (log : List LogEntry) : ℕ := (log.filter fun e => e.symbol == sym).length

@[simp] theorem LogEntry.row_symbol (e : LogEntry) : e.row.symbol = e.symbol := by
  cases e <;> rfl

/-- What `change` says of an entry's row is within a millionth of what it says of the entry. -/
def RowClose (change : LogEntry → ℚ) : Prop := ∀ e, |change e.row - change e| ≤ 1 / 10 ^ 6

theorem format6_close (x : ℚ) : |format6 x - x| ≤ 1 / 10 ^ 6 :=
  (format6_sub_le x).trans (by norm_num)

theorem neg_format6_close (x : ℚ) : |-format6 x - -x| ≤ 1 / 10 ^ 6 := by
  rw [neg_sub_neg, abs_sub_comm]
  exact format6_close x

theorem rowClose_totalChange : RowClose LogEntry.totalChange := by
  rintro (f | r)
  · simp [LogEntry.row, LogEntry.totalChange]
  · have pnl := format6_sub_le r.pnl
    have cost := format6_sub_le r.upCost
    simp only [LogEntry.row, LogEntry.totalChange, MarketResult.totalChange]
    split_ifs
    · calc |format6 r.pnl + format6 r.upCost - (r.pnl + r.upCost)|
          = |(format6 r.pnl - r.pnl) + (format6 r.upCost - r.upCost)| := by ring_nf
        _ ≤ |format6 r.pnl - r.pnl| + |format6 r.upCost - r.upCost| := abs_add _ _
        _ ≤ 1 / 10 ^ 6 := by linarith
    · simpa using format6_close r.pnl

theorem rowClose_cashChange : RowClose LogEntry.cashChange := by
  rintro (f | r)
  · exact neg_format6_close f.usd
  · simp only [LogEntry.row, LogEntry.cashChange, MarketResult.redeemed]
    split_ifs
    exacts [format6_close r.upShares, format6_close r.downShares]

theorem rowClose_sharesChange (t : String) : RowClose (LogEntry.sharesChange t) := by
  rintro (f | r)
  · simp only [LogEntry.row, LogEntry.sharesChange]
    split_ifs
    exacts [format6_close f.shares, by simp]
  · simp only [LogEntry.row, LogEntry.sharesChange, MarketResult.positionOf]
    split_ifs
    exacts [neg_format6_close r.upShares, neg_format6_close r.downShares, by simp]

theorem rowClose_costChange (t : String) : RowClose (LogEntry.costChange t) := by
  rintro (f | r)
  · simp only [LogEntry.row, LogEntry.costChange]
    split_ifs
    exacts [format6_close f.usd, by simp]
  · simp only [LogEntry.row, LogEntry.costChange, MarketResult.positionOf]
    split_ifs
    exacts [neg_format6_close r.upCost, neg_format6_close r.downCost, by simp]

/-- **A log's rows sum within a millionth a row** of its entries, for a change its rows give
within a millionth. -/
theorem loggedSum_rows {change : LogEntry → ℚ} (close : RowClose change) (sym : String)
    (log : List LogEntry) :
    |loggedSum change sym (log.map LogEntry.row) - loggedSum change sym log| ≤
      rowCount sym log / 10 ^ 6 := by
  induction log with
  | nil => simp [loggedSum, rowCount]
  | cons e rest ih =>
    by_cases mine : e.symbol = sym
    · have step : loggedSum change sym ((e :: rest).map LogEntry.row) - loggedSum change sym (e :: rest) =
          (change e.row - change e) +
            (loggedSum change sym (rest.map LogEntry.row) - loggedSum change sym rest) := by
        simp [loggedSum, List.filter_cons, mine]
        ring
      have count : (rowCount sym (e :: rest) : ℚ) = rowCount sym rest + 1 := by
        simp [rowCount, List.filter_cons, mine]
      calc _ = |(change e.row - change e) +
              (loggedSum change sym (rest.map LogEntry.row) - loggedSum change sym rest)| := by
            rw [step]
        _ ≤ |change e.row - change e| +
              |loggedSum change sym (rest.map LogEntry.row) - loggedSum change sym rest| :=
            abs_add _ _
        _ ≤ 1 / 10 ^ 6 + rowCount sym rest / 10 ^ 6 := add_le_add (close e) ih
        _ = rowCount sym (e :: rest) / 10 ^ 6 := by rw [count]; ring
    · simpa [loggedSum, rowCount, List.filter_cons, mine] using ih

/-! ### Quantities the entries account for -/

section Conserved

variable {cfg : StrategyConfig} {onlySymbol : Option String}
  (Q : PaperAccount → ℚ) (change : LogEntry → ℚ)
  (tick : ∀ {mkt : ActiveMarket} {fuel : ℕ} {writes : Stream' Bool}
    {eng eng' : UpDownStrategyEngine} {store : OrderBookStore} {acct acct' : PaperAccount}
    {fills : List Fill} {raised : Bool},
    stepLogged cfg mkt fuel writes eng store acct = some ((eng', acct', fills), raised) →
      Q acct' = Q acct + (fills.map fun f => change (.fill f)).sum)
  (settle : ∀ mkt startWait polls final acct,
    Q (settleMarket cfg mkt startWait polls final acct).1 =
      Q acct + change (.result (settleMarket cfg mkt startWait polls final acct).2))
include tick settle

/-- One iteration keeps, for every symbol, `Q` of its account less what its entries, written and
lost, say moved it. -/
theorem mainIteration_conserves {fuel : ℕ} {d d' : Driver} {inp : LoopInputs}
    (result : mainIteration cfg onlySymbol fuel d inp = some (.ok d')) {sym : String}
    {acct : PaperAccount} (found : d.accounts.get? sym = some acct) :
    ∃ acct', d'.accounts.get? sym = some acct' ∧
      Q acct' - loggedSum change sym d'.log - loggedSum change sym d'.lost =
        Q acct - loggedSum change sym d.log - loggedSum change sym d.lost := by
  obtain ⟨D, discovered, rfl | ⟨mkt, acct1, eng, acct', fills, raised, -, bound, ticked, settled⟩⟩ :=
    mainIteration_cases result
  all_goals obtain ⟨accounts, log, lost⟩ := Driver.discover_frame discovered
  · exact ⟨acct, accounts ▸ found, by rw [log, lost]⟩
  have symbols := fun f mem => ((stepLogged_buys ticked).2.logged.2 f mem).1
  have split : loggedSum change sym ((writtenFills fills raised).map .fill) +
      loggedSum change sym ((raisedFills fills raised).map .fill) =
        loggedSum change sym (fills.map .fill) := by
    rw [← loggedSum_append, ← List.map_append, writtenFills_append_raisedFills]
  have settledSymbol : (settleMarket cfg mkt inp.settleStart inp.polls inp.final acct').2.symbol =
      mkt.symbol := rfl
  by_cases same : mkt.symbol = sym
  · subst same
    obtain rfl := Option.some.inj (bound.symm.trans (accounts ▸ found))
    have ticks := tick ticked
    rw [loggedSum_fills change _ symbols, if_pos rfl] at split
    rcases settled with ⟨-, rfl⟩ | ⟨-, -, rfl⟩ | ⟨-, -, rfl⟩
    · refine ⟨acct', by simp [Driver.recordTick, Dict.get?_insert], ?_⟩
      simp only [Driver.saveCheck_log, Driver.saveCheck_lost, Driver.recordTick, loggedSum_append,
        log, lost]
      linarith
    all_goals
      refine ⟨(settleMarket cfg mkt inp.settleStart inp.polls inp.final acct').1,
        by simp [Driver.recordTick, Driver.recordResult, Driver.recordLostResult, Dict.get?_insert], ?_⟩
      have settles := settle mkt inp.settleStart inp.polls inp.final acct'
      simp only [Driver.saveCheck_log, Driver.saveCheck_lost, Driver.recordTick, Driver.recordResult,
        Driver.recordLostResult, loggedSum_append, loggedSum_result, settledSymbol, if_true, log, lost]
      linarith
  · have untouched : loggedSum change sym (fills.map .fill) = 0 := by
      simp [loggedSum_fills change sym symbols, same]
    rcases settled with ⟨-, rfl⟩ | ⟨-, -, rfl⟩ | ⟨-, -, rfl⟩
    · refine ⟨acct, by simp [Driver.recordTick, Dict.get?_insert, same, accounts, found], ?_⟩
      simp only [Driver.saveCheck_log, Driver.saveCheck_lost, Driver.recordTick, loggedSum_append,
        log, lost]
      linarith
    all_goals
      refine ⟨acct, by simp [Driver.recordTick, Driver.recordResult, Driver.recordLostResult,
        Dict.get?_insert, same, accounts, found], ?_⟩
      simp only [Driver.saveCheck_log, Driver.saveCheck_lost, Driver.recordTick, Driver.recordResult,
        Driver.recordLostResult, loggedSum_append, loggedSum_result, settledSymbol, same, if_false,
        log, lost]
      linarith

/-- Over a run of `main`, every symbol with an account at the start keeps it, and `Q` of the
account less what its entries, written and lost, say moved it stays what it was. -/
theorem DriverRun.conserves {start d : Driver} (run : DriverRun cfg onlySymbol start d)
    {sym : String} {acct₀ : PaperAccount} (initial : start.accounts.get? sym = some acct₀) :
    ∃ acct, d.accounts.get? sym = some acct ∧
      Q acct - loggedSum change sym d.log - loggedSum change sym d.lost =
        Q acct₀ - loggedSum change sym start.log - loggedSum change sym start.lost := by
  induction run with
  | start => exact ⟨acct₀, initial, rfl⟩
  | iterate _ _ _ result ih =>
    obtain ⟨acct, found, before⟩ := ih
    obtain ⟨acct', found', after⟩ := mainIteration_conserves Q change tick settle result found
    exact ⟨acct', found', after.trans before⟩

/-- **What the files say, within a millionth a row.** Over a run of `main` from its start, `Q` of
every account has moved by what the symbol's rows in the files say, each float to six decimals,
plus what the entries whose write raised say, within a millionth for each of the symbol's rows. -/
theorem DriverRun.reconciles (close : RowClose change) {mode : Mode} {accounts : Dict PaperAccount}
    {meta : Meta} {d : Driver} (run : DriverRun cfg onlySymbol (Driver.start cfg mode accounts meta) d)
    {sym : String} {acct₀ : PaperAccount} (initial : accounts.get? sym = some acct₀) :
    ∃ acct, d.accounts.get? sym = some acct ∧
      |Q acct - Q acct₀ - loggedSum change sym (d.log.map LogEntry.row) -
          loggedSum change sym d.lost| ≤ rowCount sym d.log / 10 ^ 6 := by
  obtain ⟨acct, found, same⟩ := run.conserves Q change tick settle initial
  refine ⟨acct, found, ?_⟩
  have exact : Q acct - Q acct₀ - loggedSum change sym d.lost = loggedSum change sym d.log := by
    simp only [Driver.start, loggedSum, List.filter_nil, List.map_nil, List.sum_nil, sub_zero]
      at same
    simp only [loggedSum]
    linarith
  rw [show Q acct - Q acct₀ - loggedSum change sym (d.log.map LogEntry.row) -
      loggedSum change sym d.lost =
    -(loggedSum change sym (d.log.map LogEntry.row) - loggedSum change sym d.log) by linarith,
    abs_neg]
  exact loggedSum_rows close sym d.log

end Conserved

/-- **A settlement moves cash plus cost by its result's `totalChange`**, whether or not the
market's two tokens differ. -/
theorem settleMarket_total_change (cfg : StrategyConfig) (mkt : ActiveMarket) (startWait : ℚ)
    (polls : List (ℚ × OrderBookStore)) (final : OrderBookStore) (acct : PaperAccount) :
    (settleMarket cfg mkt startWait polls final acct).1.total =
      acct.total + (settleMarket cfg mkt startWait polls final acct).2.totalChange := by
  by_cases distinct : mkt.upToken = mkt.downToken
  · -- One token: its position is zeroed once, and its cost is subtracted twice in the pnl.
    simp only [settleMarket, MarketResult.totalChange, PaperAccount.total, PaperAccount.position,
      ← distinct, Dict.sumBy_insert Position.costUsd _ _ _ ({} : Position) rfl,
      Dict.getD_insert_self, if_true, ite_self]
    norm_num
    ring
  · rw [settleMarket_total cfg mkt startWait polls final acct distinct]
    simp [MarketResult.totalChange, settleMarket, distinct]

/-- **A settlement zeroes what its result records**: each token's position drops by the position
the result recorded for it. -/
theorem settleMarket_position_change (cfg : StrategyConfig) (mkt : ActiveMarket) (startWait : ℚ)
    (polls : List (ℚ × OrderBookStore)) (final : OrderBookStore) (acct : PaperAccount) (t : String) :
    ((settleMarket cfg mkt startWait polls final acct).1.position t).shares =
        (acct.position t).shares - ((settleMarket cfg mkt startWait polls final acct).2.positionOf t).shares ∧
      ((settleMarket cfg mkt startWait polls final acct).1.position t).costUsd =
        (acct.position t).costUsd -
          ((settleMarket cfg mkt startWait polls final acct).2.positionOf t).costUsd := by
  obtain ⟨upShares, downShares, upCost, downCost, upToken, downToken, -, upZero, downZero, others,
    -⟩ := settleMarket_spec cfg mkt startWait polls final acct
  simp only [MarketResult.positionOf, upToken, downToken]
  split_ifs with up down
  · subst up
    simp [upZero, upShares, upCost]
  · subst down
    simp [downZero, downShares, downCost]
  · simp [others t (Ne.symm up) (Ne.symm down)]


section Ledgers

variable {cfg : StrategyConfig} {onlySymbol : Option String}

/-- A tick only moves dollars between cash and cost, whatever its writer. -/
theorem stepLogged_total {mkt : ActiveMarket} {fuel : ℕ} {writes : Stream' Bool}
    {eng eng' : UpDownStrategyEngine} {store : OrderBookStore} {acct acct' : PaperAccount}
    {fills : List Fill} {raised : Bool}
    (result : stepLogged cfg mkt fuel writes eng store acct = some ((eng', acct', fills), raised)) :
    acct'.total = acct.total :=
  (stepLogged_buys result).2.preserves (fun a => a.total = acct.total)
    (fun _ _ _ _ _ _ _ bought same => (maybeBuy_total bought).trans same) rfl

/-- **Cash plus cost reconciles with the results file.** For every symbol with an account at the
start, over every run of `main`, whichever of its audit writes raise, the account's cash plus the
cost of all its positions has moved by the `totalChange`s of the symbol's results as
`results.csv` holds them, to six decimals, and of those whose `log_result` raised, within a
millionth for each of the symbol's rows in the files: the engine's buys never change it, and each
settlement changes it by its result's pnl (plus the cost the pnl counts twice when the market's
two tokens coincide), whether or not its row is written. -/
theorem DriverRun.total_sub_logged {mode : Mode} {accounts : Dict PaperAccount} {meta : Meta}
    {d : Driver} (run : DriverRun cfg onlySymbol (Driver.start cfg mode accounts meta) d)
    {sym : String} {acct₀ : PaperAccount} (initial : accounts.get? sym = some acct₀) :
    ∃ acct, d.accounts.get? sym = some acct ∧
      |acct.total - acct₀.total - loggedSum LogEntry.totalChange sym (d.log.map LogEntry.row) -
          loggedSum LogEntry.totalChange sym d.lost| ≤ rowCount sym d.log / 10 ^ 6 :=
  run.reconciles PaperAccount.total LogEntry.totalChange
    (fun stepped => by simp [stepLogged_total stepped, LogEntry.totalChange])
    (settleMarket_total_change cfg) rowClose_totalChange initial

/-- **Cash reconciles with the trades and results files.** For every symbol with an account at
the start, over every run of `main`, whichever of its audit writes raise, its cash has moved by
what the symbol's rows in the files say, to six decimals, and what the entries whose write raised
say, within a millionth for each of its rows: the dollars of its fills left its cash, and the
shares its results redeemed came in. -/
theorem DriverRun.cash_sub_logged {mode : Mode} {accounts : Dict PaperAccount} {meta : Meta}
    {d : Driver} (run : DriverRun cfg onlySymbol (Driver.start cfg mode accounts meta) d)
    {sym : String} {acct₀ : PaperAccount} (initial : accounts.get? sym = some acct₀) :
    ∃ acct, d.accounts.get? sym = some acct ∧
      |acct.cash - acct₀.cash - loggedSum LogEntry.cashChange sym (d.log.map LogEntry.row) -
          loggedSum LogEntry.cashChange sym d.lost| ≤ rowCount sym d.log / 10 ^ 6 :=
  run.reconciles PaperAccount.cash LogEntry.cashChange
    (fun stepped => by simpa [LogEntry.cashChange] using (stepLogged_buys stepped).2.logged.1)
    (fun mkt startWait polls final acct => by
      simpa [LogEntry.cashChange] using
        (settleMarket_spec cfg mkt startWait polls final acct).2.2.2.2.2.2.1)
    rowClose_cashChange initial

/-- **Every position reconciles with the trades and results files.** For every symbol with an
account at the start and every token, over every run of `main`, whichever of its audit writes
raise, the shares and the cost the account holds in the token have moved by what the symbol's
rows in the files say, to six decimals, and what the entries whose write raised say, within a
millionth for each of its rows: its fills of the token added their shares and dollars, and its
results took away the position they recorded for the token, which their settlement zeroed. -/
theorem DriverRun.position_sub_logged {mode : Mode} {accounts : Dict PaperAccount} {meta : Meta}
    {d : Driver} (run : DriverRun cfg onlySymbol (Driver.start cfg mode accounts meta) d)
    {sym : String} {acct₀ : PaperAccount} (initial : accounts.get? sym = some acct₀) (t : String) :
    ∃ acct, d.accounts.get? sym = some acct ∧
      |(acct.position t).shares - (acct₀.position t).shares -
          loggedSum (LogEntry.sharesChange t) sym (d.log.map LogEntry.row) -
          loggedSum (LogEntry.sharesChange t) sym d.lost| ≤ rowCount sym d.log / 10 ^ 6 ∧
      |(acct.position t).costUsd - (acct₀.position t).costUsd -
          loggedSum (LogEntry.costChange t) sym (d.log.map LogEntry.row) -
          loggedSum (LogEntry.costChange t) sym d.lost| ≤ rowCount sym d.log / 10 ^ 6 := by
  obtain ⟨acct, found, shares⟩ := run.reconciles (fun a => (a.position t).shares)
    (LogEntry.sharesChange t)
    (fun stepped => by
      simpa [LogEntry.sharesChange] using ((stepLogged_buys stepped).2.position_logged t).1)
    (fun mkt startWait polls final acct => by
      simp [LogEntry.sharesChange, (settleMarket_position_change cfg mkt startWait polls final acct t).1,
        sub_eq_add_neg])
    (rowClose_sharesChange t) initial
  obtain ⟨acct', found', cost⟩ := run.reconciles (fun a => (a.position t).costUsd)
    (LogEntry.costChange t)
    (fun stepped => by
      simpa [LogEntry.costChange] using ((stepLogged_buys stepped).2.position_logged t).2)
    (fun mkt startWait polls final acct => by
      simp [LogEntry.costChange, (settleMarket_position_change cfg mkt startWait polls final acct t).2,
        sub_eq_add_neg])
    (rowClose_costChange t) initial
  obtain rfl := Option.some.inj (found.symm.trans found')
  exact ⟨acct, found, shares, cost⟩

/-- From a log of well-formed fills, every run of `main` logs only well-formed fills. -/
theorem DriverRun.fills_wf {start d : Driver} (run : DriverRun cfg onlySymbol start d)
    (initial : ∀ f ∈ start.log.filterMap LogEntry.fill?, f.Wf) :
    ∀ f ∈ d.log.filterMap LogEntry.fill?, f.Wf := by
  induction run with
  | start => exact initial
  | iterate _ _ _ result ih =>
    obtain ⟨D, discovered, rfl | ⟨_, _, _, _, fills, raised, -, -, ticked, settled⟩⟩ :=
      mainIteration_cases result
    all_goals have log := (Driver.discover_frame discovered).2.1
    · rwa [log]
    have fresh : ∀ f ∈ writtenFills fills raised, f.Wf := fun f mem =>
      ((stepLogged_buys ticked).2.logged.2 f (writtenFills_subset fills raised mem)).2
    have logged : ((writtenFills fills raised).map LogEntry.fill).filterMap LogEntry.fill? =
        writtenFills fills raised := by
      simp [List.filterMap_map, LogEntry.fill?, Function.comp_def]
    rcases settled with ⟨-, rfl⟩ | ⟨-, -, rfl⟩ | ⟨-, -, rfl⟩ <;> intro f mem <;>
      simp only [Driver.saveCheck_log, Driver.recordTick, Driver.recordResult,
        Driver.recordLostResult, log, List.filterMap_append, logged, List.mem_append] at mem
    · exact mem.elim (ih f) (fresh f)
    · rcases mem with (old | new) | result
      · exact ih f old
      · exact fresh f new
      · simp [LogEntry.fill?] at result
    · exact mem.elim (ih f) (fresh f)

/-- Every row of the trades log is a well-formed buy: over every run of `main` from its start,
each logged fill is a `BUY` of positive shares for positive dollars, at their average price. -/
theorem driverRun_fills_wf {mode : Mode} {accounts : Dict PaperAccount} {meta : Meta} {d : Driver}
    (run : DriverRun cfg onlySymbol (Driver.start cfg mode accounts meta) d) :
    ∀ f ∈ d.log.filterMap LogEntry.fill?, f.Wf :=
  run.fills_wf (by simp [Driver.start])

end Ledgers

/-! ### The cash floor -/

section Floor

variable {cfg : StrategyConfig} {floor : ℚ}

/-- A buy never takes cash below `require_free_cash`, nor below anything under it. -/
theorem maybeBuy_cash_floor (low : floor ≤ cfg.requireFreeCash) {mkt : ActiveMarket}
    {tokenId : String} {ob : OrderBook} {acct acct' : PaperAccount} {usd : ℚ} {note : String}
    {fill : Option Fill}
    (result : UpDownStrategyEngine.maybeBuy cfg mkt tokenId ob acct usd note = (acct', fill))
    (above : floor ≤ acct.cash) : floor ≤ acct'.cash := by
  rcases UpDownStrategyEngine.maybeBuy_cases result with ⟨rfl, -⟩ | ⟨budget, funds, -, -, rfl, -⟩
  · exact above
  · have within := consumeAsksForBuy_spent_le ob budget.le
    simp only [PaperAccount.credit_cash]
    linarith

/-- A settlement only adds the winner's shares to cash. -/
theorem settleMarket_cash_le (mkt : ActiveMarket) (startWait : ℚ)
    (polls : List (ℚ × OrderBookStore)) (final : OrderBookStore) {acct : PaperAccount}
    (wf : AccountWf acct) : acct.cash ≤ (settleMarket cfg mkt startWait polls final acct).1.cash := by
  obtain ⟨upShares, downShares, -, -, -, -, cash, -⟩ :=
    settleMarket_spec cfg mkt startWait polls final acct
  rw [cash, MarketResult.redeemed]
  split_ifs
  · linarith [upShares ▸ (wf.position mkt.upToken).shares_nonneg]
  · linarith [downShares ▸ (wf.position mkt.downToken).shares_nonneg]


variable {onlySymbol : Option String}

theorem mainIteration_cash_floor (free : 0 ≤ cfg.requireFreeCash) (low : floor ≤ cfg.requireFreeCash)
    {fuel : ℕ} {d d' : Driver} {inp : LoopInputs}
    (result : mainIteration cfg onlySymbol fuel d inp = some (.ok d')) (wf : d.AccountsWf)
    {sym : String} {acct : PaperAccount} (found : d.accounts.get? sym = some acct)
    (above : floor ≤ acct.cash) :
    ∃ acct', d'.accounts.get? sym = some acct' ∧ floor ≤ acct'.cash := by
  obtain ⟨D, discovered, rfl | ⟨mkt, acct1, eng, acct', fills, raised, -, bound, ticked, settled⟩⟩ :=
    mainIteration_cases result
  all_goals have accounts := (Driver.discover_frame discovered).1
  · exact ⟨acct, accounts ▸ found, above⟩
  by_cases same : mkt.symbol = sym
  · subst same
    obtain rfl := Option.some.inj (bound.symm.trans (accounts ▸ found))
    have kept : floor ≤ acct'.cash :=
      (stepLogged_buys ticked).2.preserves (fun a => floor ≤ a.cash)
        (fun _ _ _ _ _ _ _ bought before => maybeBuy_cash_floor low bought before) above
    have stillWf := stepLogged_wf free ticked (wf _ (Dict.mem_of_lookupEntry (accounts ▸ bound)))
    have settledFloor :=
      kept.trans (@settleMarket_cash_le cfg mkt inp.settleStart inp.polls inp.final _ stillWf)
    rcases settled with ⟨-, rfl⟩ | ⟨-, -, rfl⟩ | ⟨-, -, rfl⟩
    · exact ⟨acct', by simp [Driver.recordTick, Dict.get?_insert], kept⟩
    all_goals exact ⟨_, by simp [Driver.recordTick, Driver.recordResult, Driver.recordLostResult,
      Dict.get?_insert], settledFloor⟩
  · rcases settled with ⟨-, rfl⟩ | ⟨-, -, rfl⟩ | ⟨-, -, rfl⟩ <;>
      exact ⟨acct, by simp [Driver.recordTick, Driver.recordResult, Driver.recordLostResult,
        Dict.get?_insert, same, accounts, found], above⟩

/-- **No account's cash ever drops below the smaller of where it started and
`require_free_cash`** over a run of `main` from well-formed accounts: a buy is made only with a
chunk plus `require_free_cash` in cash and spends at most the chunk, and a settlement only adds
the winner's shares. -/
theorem DriverRun.cash_floor (free : 0 ≤ cfg.requireFreeCash) {start d : Driver}
    (run : DriverRun cfg onlySymbol start d) (wf : start.AccountsWf) {sym : String}
    {acct₀ : PaperAccount} (initial : start.accounts.get? sym = some acct₀) :
    ∃ acct, d.accounts.get? sym = some acct ∧ min acct₀.cash cfg.requireFreeCash ≤ acct.cash := by
  induction run with
  | start => exact ⟨acct₀, initial, min_le_left _ _⟩
  | iterate _ _ before result ih =>
    obtain ⟨acct, found, above⟩ := ih
    exact mainIteration_cash_floor free (min_le_right _ _) result (before.accountsWf free wf) found
      above

end Floor

/-! ### The engine's ladder -/

section Engine

variable {cfg : StrategyConfig} {onlySymbol : Option String} {fuel : ℕ} {d d' D : Driver}
  {inp : LoopInputs}

/-- From a start whose engine keeps the ladder's invariant, every engine a run of `main` reaches
keeps it. -/
theorem DriverRun.ladderInv (plain : LadderConfig cfg) {start d : Driver}
    (run : DriverRun cfg onlySymbol start d) (initial : LadderInv cfg start.engine) :
    LadderInv cfg d.engine := by
  induction run with
  | start => exact initial
  | @iterate d d' _ inp _ result ih =>
    obtain ⟨D, discovered, iterated⟩ := mainIteration_cases result
    have reset : LadderInv cfg D.engine := by
      rcases Driver.discover_cases discovered with ⟨-, same, -⟩ | ⟨_, -, -, reset, -⟩
      · exact same ▸ ih
      · exact reset ▸ resetForNewMarket_ladderInv plain _
    rcases iterated with rfl | ⟨_, _, _, _, _, _, -, -, ticked, settled⟩
    · exact reset
    · have ticks := reset.of_ladderStep plain (stepLogged_ladder ticked)
      rcases settled with ⟨-, rfl⟩ | ⟨-, -, rfl⟩ | ⟨-, -, rfl⟩ <;>
        simpa [Driver.recordTick, Driver.recordResult, Driver.recordLostResult] using ticks

/-- **The DCA ladder over every run of `main`.** Across every market a run binds, each side of
the engine has made at most `dca_levels + 1` rungs and waits at the rung of their count. -/
theorem driverRun_dcaLadder (plain : LadderConfig cfg) {mode : Mode}
    {accounts : Dict PaperAccount} {meta : Meta} {d : Driver}
    (run : DriverRun cfg onlySymbol (Driver.start cfg mode accounts meta) d) (side : Side) :
    d.engine.dcaBuysDone.get side ≤ cfg.dcaLevels + 1 ∧
      d.engine.nextDcaThreshold.get side = ladderRung cfg (d.engine.dcaBuysDone.get side) :=
  have inv := run.ladderInv plain (resetForNewMarket_ladderInv plain _)
  ⟨inv.done_le side, inv.threshold_eq side⟩

end Engine

/-! ### What `meta` records -/

/-- What `save_state` writes of `meta` agrees with the run: a bound market is `meta`'s
`active_market`, and the last result logged is of `meta`'s `last_settled` slug. -/
structure MetaInv (d : Driver) : Prop where
  bound : ∀ mkt, d.activeMarket = some mkt → d.meta.activeMarket = some mkt
  settled : ∀ r, (d.log.filterMap LogEntry.result?).getLast? = some r → d.meta.lastSettled = some r.slug

section Meta

variable {cfg : StrategyConfig} {onlySymbol : Option String} {fuel : ℕ} {d d' D : Driver}
  {inp : LoopInputs}

/-- The discovery block binds a market together with `meta`'s `active_market`. -/
theorem Driver.discover_metaInv (inv : MetaInv d) (found : d.discover cfg onlySymbol inp = .ok D) :
    MetaInv D := by
  have log := (Driver.discover_frame found).2.1
  rcases Driver.discover_cases found with ⟨market, -, meta⟩ | ⟨nxt, -, market, -, meta⟩
  · exact ⟨fun mkt bound => meta ▸ inv.bound mkt (market ▸ bound),
      fun r last => meta ▸ inv.settled r (log ▸ last)⟩
  · exact ⟨fun mkt bound => by rw [meta]; simpa [market] using bound,
      fun r last => by rw [meta]; exact inv.settled r (log ▸ last)⟩

/-- Appending fills keeps `meta` in agreement, with the market and `meta` kept. -/
theorem MetaInv.of_fills (inv : MetaInv d) (fills : List Fill)
    (market : d'.activeMarket = d.activeMarket) (meta : d'.meta = d.meta)
    (log : d'.log = d.log ++ fills.map .fill) : MetaInv d' := by
  have results : (fills.map LogEntry.fill).filterMap LogEntry.result? = [] := by
    simp [List.filterMap_map, LogEntry.result?, Function.comp_def]
  refine ⟨fun mkt bound => meta ▸ inv.bound mkt (market ▸ bound), fun r last => ?_⟩
  rw [meta]
  exact inv.settled r (by simpa [log, results] using last)

/-- After a settlement: no market bound, and the last result logged is of `last_settled`'s
slug. -/
theorem metaInv_of_settled {r : MarketResult} (unbound : d.activeMarket = none)
    (last : (d.log.filterMap LogEntry.result?).getLast? = some r)
    (recorded : d.meta.lastSettled = some r.slug) : MetaInv d :=
  ⟨fun _ bound => by simp [unbound] at bound,
    fun _ last' => by rw [recorded, ← Option.some.inj (last.symm.trans last')]⟩

/-- Each iteration keeps `meta` in agreement with the run. -/
theorem mainIteration_metaInv (result : mainIteration cfg onlySymbol fuel d inp = some (.ok d'))
    (inv : MetaInv d) : MetaInv d' := by
  obtain ⟨D, discovered, iterated⟩ := mainIteration_cases result
  have discoveredInv : MetaInv D := Driver.discover_metaInv inv discovered
  rcases iterated with rfl | ⟨mkt, _, _, acct', fills, raised, -, -, -, settled⟩
  · exact discoveredInv
  rcases settled with ⟨-, rfl⟩ | ⟨-, -, rfl⟩ | ⟨-, -, rfl⟩
  · exact discoveredInv.of_fills (writtenFills fills raised) (by simp [Driver.recordTick])
      (by simp [Driver.recordTick]) (by simp [Driver.recordTick])
  · exact metaInv_of_settled (r := (settleMarket cfg mkt inp.settleStart inp.polls inp.final acct').2)
      (by simp [Driver.recordResult])
      (by simp [Driver.recordTick, Driver.recordResult, List.filterMap_append, LogEntry.result?])
      (by simp [Driver.recordResult]; rfl)
  · exact discoveredInv.of_fills (writtenFills fills raised) (by simp [Driver.recordTick,
      Driver.recordLostResult]) (by simp [Driver.recordTick, Driver.recordLostResult])
      (by simp [Driver.recordTick, Driver.recordLostResult])

theorem DriverRun.metaInv {start : Driver} (run : DriverRun cfg onlySymbol start d)
    (initial : MetaInv start) : MetaInv d := by
  induction run with
  | start => exact initial
  | iterate _ _ _ result ih => exact mainIteration_metaInv result ih

/-- **The state file's `meta` agrees with the run.** Over every run of `main` from its start,
whenever a market is bound it is `meta`'s `active_market`, and the market of the last result
logged is `meta`'s `last_settled`, so a save at any iteration writes both as they are. -/
theorem driverRun_meta {mode : Mode} {accounts : Dict PaperAccount} {meta : Meta} {d : Driver}
    (run : DriverRun cfg onlySymbol (Driver.start cfg mode accounts meta) d) :
    (∀ mkt, d.activeMarket = some mkt → d.meta.activeMarket = some mkt) ∧
      ∀ r, (d.log.filterMap LogEntry.result?).getLast? = some r → d.meta.lastSettled = some r.slug :=
  have inv := run.metaInv ⟨fun _ bound => (by cases bound), fun _ last => (by cases last)⟩
  ⟨inv.bound, inv.settled⟩

end Meta

/-! ### The market and the account each iteration ticks -/

section Bound

variable {cfg : StrategyConfig} {onlySymbol : Option String} {fuel : ℕ} {d d' D : Driver}
  {inp : LoopInputs}

/-- The discovery block binds only what `discover_next_market` returns. -/
theorem Driver.discover_listed (found : d.discover cfg onlySymbol inp = .ok D)
    (listed : ∀ mkt, d.activeMarket = some mkt → Listed cfg onlySymbol mkt) :
    ∀ mkt, D.activeMarket = some mkt → Listed cfg onlySymbol mkt := by
  rcases Driver.discover_cases found with ⟨market, -⟩ | ⟨nxt, discovered, market, -⟩
  · exact market ▸ listed
  · exact fun _ bound => Option.some.inj (market.symm.trans bound) ▸ discoverNextMarket_listed discovered

/-- An iteration keeps the market the discovery block bound, or unbinds it. -/
theorem mainIteration_listed (result : mainIteration cfg onlySymbol fuel d inp = some (.ok d'))
    (listed : ∀ mkt, d.activeMarket = some mkt → Listed cfg onlySymbol mkt) :
    ∀ mkt, d'.activeMarket = some mkt → Listed cfg onlySymbol mkt := by
  obtain ⟨D, discovered, iterated⟩ := mainIteration_cases result
  have bound := Driver.discover_listed discovered listed
  rcases iterated with rfl | ⟨_, _, _, _, _, _, -, -, -, settled⟩
  · exact bound
  rcases settled with ⟨-, rfl⟩ | ⟨-, -, rfl⟩ | ⟨-, -, rfl⟩
  · simpa [Driver.recordTick] using bound
  · simp [Driver.recordResult]
  · simpa [Driver.recordTick, Driver.recordLostResult] using bound

theorem DriverRun.listed {start : Driver} (run : DriverRun cfg onlySymbol start d)
    (initial : ∀ mkt, start.activeMarket = some mkt → Listed cfg onlySymbol mkt) :
    ∀ mkt, d.activeMarket = some mkt → Listed cfg onlySymbol mkt := by
  induction run with
  | start => exact initial
  | iterate _ _ _ result ih => exact mainIteration_listed result ih

/-- **Every market a run binds is one `main` may trade.** Over every run of `main`, a bound market
is of a symbol of `cfg.symbols`, and of `--symbol` when one is given. -/
theorem driverRun_bound_symbol {mode : Mode} {accounts : Dict PaperAccount} {meta : Meta}
    (run : DriverRun cfg onlySymbol (Driver.start cfg mode accounts meta) d) {mkt : ActiveMarket}
    (bound : d.activeMarket = some mkt) :
    mkt.symbol ∈ cfg.symbols ∧ ∀ only ∈ onlySymbol, only ≠ "" → mkt.symbol = only :=
  run.listed (fun _ bound => (by cases bound)) mkt bound

/-- An earlier `ETH` market is listed, and with `--symbol BTC` the run binds the `BTC` one. -/
theorem driverRun_bound_symbol_btc : ∃ d mkt,
    DriverRun StrategyConfig.default (some "BTC") mainStart d ∧ d.activeMarket = some mkt ∧
    mkt.slug = sampleListing.slug ∧
    mkt.symbol ∈ StrategyConfig.default.symbols ∧ ∀ only ∈ some "BTC", only ≠ "" → mkt.symbol = only := by
  obtain ⟨d, run, passes⟩ := exists_of_runIterations .start
    (show (runIterations StrategyConfig.default (some "BTC") 10 mainStart
      [inputsAt 0 [⟨"eth-updown-15m-1", some ⟨500, true⟩, "e", ["UE", "DE"]⟩, sampleListing]
        (bookPair [(0.50, 100)] [(0.50, 100)])]).any
        (fun r => r.toOption.any fun d =>
          d.activeMarket.map ActiveMarket.slug == some sampleListing.slug) = true by
      with_unfolding_all decide)
  obtain ⟨mkt, bound, slug⟩ := Option.map_eq_some'.mp (beq_iff_eq.mp passes)
  exact ⟨d, mkt, run, bound, slug, driverRun_bound_symbol run bound⟩

end Bound

/-! ### From `main`'s start -/

/-- The fresh accounts `load_state` starts from are well formed when no starting balance is
negative. -/
theorem freshAccounts_wf {symbols : List String} {startBalances : Dict ℚ}
    (nonneg : ∀ sym, 0 ≤ startBalances.getD sym 100.0) :
    ∀ entry ∈ (freshAccounts symbols startBalances).entries, AccountWf entry.2 := by
  suffices general : ∀ init : Dict PaperAccount, (∀ entry ∈ init.entries, AccountWf entry.2) →
      ∀ entry ∈ (symbols.foldl (fun accounts sym =>
        accounts.insert sym ⟨sym, startBalances.getD sym 100.0, Dict.empty⟩) init).entries,
        AccountWf entry.2 from general Dict.empty (by simp [Dict.empty])
  induction symbols with
  | nil => exact fun _ wf => wf
  | cons sym rest ih =>
    exact fun init wf => ih _ (Dict.forall_insert wf ⟨nonneg sym, by simp [Dict.empty]⟩)

/-- `main`'s accounts at its start are well formed. -/
theorem mainStart_accountsWf : mainStart.AccountsWf :=
  freshAccounts_wf fun sym => Dict.getD_of_forall (P := fun balance : ℚ => 0 ≤ balance) _ sym _
    (by norm_num [startBalances]) (by norm_num)


/-- A first iteration of `main`: it binds `sampleMarket` and logs the entry chunk of `UP`. -/
theorem mainStart_first_iteration :
    ∃ d, DriverRun StrategyConfig.default none mainStart d ∧ d.log ≠ [] := by
  obtain ⟨d, run, traded⟩ := exists_of_runIterations .start
    (show (runIterations StrategyConfig.default none 10 mainStart
      [inputsAt 0 [sampleListing] (bookPair [(0.30, 100)] [(0.30, 100)])]).any
        (fun r => r.toOption.any fun d => !d.log.isEmpty) = true by with_unfolding_all decide)
  exact ⟨d, run, by simpa using traded⟩

/-- The entry chunk's row: the trades file holds the fill, and the account has paid for it. -/
theorem driverRun_total_sub_logged_first : ∃ d, DriverRun StrategyConfig.default none mainStart d ∧
    d.log ≠ [] ∧ (freshAccounts StrategyConfig.default.symbols startBalances).get? "BTC" =
      some ⟨"BTC", 100.0, Dict.empty⟩ ∧
    ∃ acct, d.accounts.get? "BTC" = some acct ∧
      |acct.total - (⟨"BTC", 100.0, Dict.empty⟩ : PaperAccount).total -
          loggedSum LogEntry.totalChange "BTC" (d.log.map LogEntry.row) -
          loggedSum LogEntry.totalChange "BTC" d.lost| ≤ rowCount "BTC" d.log / 10 ^ 6 := by
  obtain ⟨d, run, traded⟩ := mainStart_first_iteration
  exact ⟨d, run, traded, rfl, DriverRun.total_sub_logged run rfl⟩

theorem driverRun_cash_sub_logged_first : ∃ d, DriverRun StrategyConfig.default none mainStart d ∧
    d.log ≠ [] ∧ (freshAccounts StrategyConfig.default.symbols startBalances).get? "BTC" =
      some ⟨"BTC", 100.0, Dict.empty⟩ ∧
    ∃ acct, d.accounts.get? "BTC" = some acct ∧
      |acct.cash - (⟨"BTC", 100.0, Dict.empty⟩ : PaperAccount).cash -
          loggedSum LogEntry.cashChange "BTC" (d.log.map LogEntry.row) -
          loggedSum LogEntry.cashChange "BTC" d.lost| ≤ rowCount "BTC" d.log / 10 ^ 6 := by
  obtain ⟨d, run, traded⟩ := mainStart_first_iteration
  exact ⟨d, run, traded, rfl, DriverRun.cash_sub_logged run rfl⟩

theorem driverRun_cash_floor_first : ∃ d, DriverRun StrategyConfig.default none mainStart d ∧
    d.log ≠ [] ∧ 0 ≤ StrategyConfig.default.requireFreeCash ∧ mainStart.AccountsWf ∧
    mainStart.accounts.get? "BTC" = some ⟨"BTC", 100.0, Dict.empty⟩ ∧
    ∃ acct, d.accounts.get? "BTC" = some acct ∧
      min (⟨"BTC", 100.0, Dict.empty⟩ : PaperAccount).cash StrategyConfig.default.requireFreeCash ≤
        acct.cash := by
  obtain ⟨d, run, traded⟩ := mainStart_first_iteration
  have free : 0 ≤ StrategyConfig.default.requireFreeCash := by norm_num [StrategyConfig.default]
  exact ⟨d, run, traded, free, mainStart_accountsWf, rfl,
    DriverRun.cash_floor free run mainStart_accountsWf rfl⟩

theorem driverRun_position_sub_logged_first : ∃ d, DriverRun StrategyConfig.default none mainStart d ∧
    d.log ≠ [] ∧ (freshAccounts StrategyConfig.default.symbols startBalances).get? "BTC" =
      some ⟨"BTC", 100.0, Dict.empty⟩ ∧
    ∃ acct, d.accounts.get? "BTC" = some acct ∧
      |(acct.position "U").shares - ((⟨"BTC", 100.0, Dict.empty⟩ : PaperAccount).position "U").shares -
          loggedSum (LogEntry.sharesChange "U") "BTC" (d.log.map LogEntry.row) -
          loggedSum (LogEntry.sharesChange "U") "BTC" d.lost| ≤ rowCount "BTC" d.log / 10 ^ 6 ∧
      |(acct.position "U").costUsd - ((⟨"BTC", 100.0, Dict.empty⟩ : PaperAccount).position "U").costUsd -
          loggedSum (LogEntry.costChange "U") "BTC" (d.log.map LogEntry.row) -
          loggedSum (LogEntry.costChange "U") "BTC" d.lost| ≤ rowCount "BTC" d.log / 10 ^ 6 := by
  obtain ⟨d, run, traded⟩ := mainStart_first_iteration
  have initial : (freshAccounts StrategyConfig.default.symbols startBalances).get? "BTC" =
      some ⟨"BTC", 100.0, Dict.empty⟩ := rfl
  exact ⟨d, run, traded, initial, DriverRun.position_sub_logged run initial "U"⟩

theorem driverRun_meta_first : ∃ d, DriverRun StrategyConfig.default none mainStart d ∧
    d.log ≠ [] ∧
    (∀ mkt, d.activeMarket = some mkt → d.meta.activeMarket = some mkt) ∧
      ∀ r, (d.log.filterMap LogEntry.result?).getLast? = some r → d.meta.lastSettled = some r.slug := by
  obtain ⟨d, run, traded⟩ := mainStart_first_iteration
  exact ⟨d, run, traded, driverRun_meta run⟩

theorem driverRun_dcaLadder_first : LadderConfig StrategyConfig.default ∧
    ∃ d, DriverRun StrategyConfig.default none mainStart d ∧ d.log ≠ [] ∧
      d.engine.dcaBuysDone.get .up ≤ StrategyConfig.default.dcaLevels + 1 ∧
      d.engine.nextDcaThreshold.get .up =
        ladderRung StrategyConfig.default (d.engine.dcaBuysDone.get .up) := by
  obtain ⟨d, run, traded⟩ := mainStart_first_iteration
  exact ⟨.default, d, run, traded, driverRun_dcaLadder .default run .up⟩

end PaperTrader
