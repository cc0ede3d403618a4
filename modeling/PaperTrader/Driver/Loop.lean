/-
**`main`: the driver loop, over whole runs.**

`Driver` is what `main` keeps between two iterations of its `while True` loop, and `LoopInputs`
what one iteration reads from the world: clock readings, the Gamma listing, the books the engine
and settlement see, and how each of its audit writes ends. `mainIteration` is one iteration, with
the three ways an exception leaves part of it:

* out of `main`, from `discover_next_market`, which `main` calls outside any `try`, or from the
  lookup `accounts[active_market.symbol]` (an `.error` result, which ends the run);
* out of `engine.step`, after a `log_fill` raised (`stepLogged`), swallowed by `main`'s `try`;
* out of `settle_market`, after `log_result` raised (`settleMarketLogged`), swallowed by the other
  `try`, whose `continue` skips the rest of the iteration and leaves the market bound, so the next
  iteration settles it again.

The rows the files hold are the entries of `Driver.log` with each float as its six decimals read
back (`LogEntry.row`); `Driver.lost` is ghost state, the entries whose write raised, which no file
holds. `Driver.load` is the state `main` starts its loop from, from what `load_state` returns, and
`DriverRun` every state a run reaches under any inputs. From `mainIteration_cases`, which says once
what an iteration that returns does:

* `DriverRun.accountsWf` — every account of the run stays well formed;
* `mainIteration_error`, `mainIteration_none` — an iteration raises out of `main` only in
  discovery or in the lookup, and does not return only when its tick does not;
* `driver_rebinds_unsettled_market` — a discovery refresh after a market's end, which comes
  before the settlement check, binds the next market while the bound one still holds shares,
  and that one is never settled;
* `driver_settles_market_twice` — right after a settlement, discovery's fallback binds the
  settled market again, which then trades and is settled a second time.
-/

import PaperTrader.Ledger.Audit
import PaperTrader.Driver.Discovery
import PaperTrader.Persist.State
import Mathlib.Data.Rat.Floor

namespace PaperTrader

open UpDownStrategyEngine

/-- A row the run writes, in the order it writes them: to `trades.csv` or to `results.csv`. -/
inductive LogEntry
  | fill (f : Fill)
  | result (r : MarketResult)
  deriving DecidableEq, Repr

def LogEntry.fill? : LogEntry → Option Fill
  | .fill f => some f
  | .result _ => none

def LogEntry.result? : LogEntry → Option MarketResult
  | .fill _ => none
  | .result r => some r

/-! ### The rows the files hold -/

/-- The integer nearest `x`, a tie going to the even one. -/
def roundHalfEven (x : ℚ) : ℤ :=
  if x - ⌊x⌋ < 1 / 2 then ⌊x⌋
  else if 1 / 2 < x - ⌊x⌋ then ⌊x⌋ + 1
  else if ⌊x⌋ % 2 = 0 then ⌊x⌋ else ⌊x⌋ + 1

/-- `f"{x:.6f}"` read back: `x` to six decimals, a tie to the even last digit, as Python formats a
float's exact value. -/
def format6 (x : ℚ) : ℚ := roundHalfEven (x * 10 ^ 6) / 10 ^ 6

/-- The row `log_fill` or `log_result` writes for an entry, read back: each float through
`f"{x:.6f}"`, every other field as it is. -/
def LogEntry.row : LogEntry → LogEntry
  | .fill f => .fill
    { f with price := format6 f.price, shares := format6 f.shares, usd := format6 f.usd }
  | .result r => .result
    { r with
      upShares := format6 r.upShares
      downShares := format6 r.downShares
      upCost := format6 r.upCost
      downCost := format6 r.downCost
      pnl := format6 r.pnl
      balanceAfter := format6 r.balanceAfter }

/-- Rounding picks the floor of `x` when `x` is at most half way above it, and the next integer
when it is at least half way. -/
theorem roundHalfEven_cases (x : ℚ) :
    (x - ⌊x⌋ ≤ 1 / 2 ∧ roundHalfEven x = ⌊x⌋) ∨ (1 / 2 ≤ x - ⌊x⌋ ∧ roundHalfEven x = ⌊x⌋ + 1) := by
  unfold roundHalfEven
  split_ifs with lower upper
  · exact .inl ⟨lower.le, rfl⟩
  · exact .inr ⟨upper.le, rfl⟩
  · exact .inl ⟨not_lt.mp upper, rfl⟩
  · exact .inr ⟨not_lt.mp lower, rfl⟩

theorem roundHalfEven_sub_le (x : ℚ) : |(roundHalfEven x : ℚ) - x| ≤ 1 / 2 := by
  have below := Int.floor_le x
  have above := Int.lt_floor_add_one x
  rw [abs_le]
  rcases roundHalfEven_cases x with ⟨near, picked⟩ | ⟨near, picked⟩ <;> rw [picked] <;> push_cast <;>
    constructor <;> linarith

/-- **Six decimals are within half a millionth.** -/
theorem format6_sub_le (x : ℚ) : |format6 x - x| ≤ 1 / (2 * 10 ^ 6) := by
  have scaled := roundHalfEven_sub_le (x * 10 ^ 6)
  have shift : format6 x - x = ((roundHalfEven (x * 10 ^ 6) : ℚ) - x * 10 ^ 6) / 10 ^ 6 := by
    rw [format6, sub_div, mul_div_cancel_right₀ _ (by norm_num : (10 : ℚ) ^ 6 ≠ 0)]
  rw [shift, abs_div, abs_of_pos (by norm_num : (0 : ℚ) < 10 ^ 6), div_le_iff₀ (by norm_num)]
  calc |(roundHalfEven (x * 10 ^ 6) : ℚ) - x * 10 ^ 6| ≤ 1 / 2 := scaled
    _ = 1 / (2 * 10 ^ 6) * 10 ^ 6 := by norm_num

/-! ### The driver -/

/-- The keys of `meta` that `main` writes. -/
structure Meta where
  activeMarket : Option ActiveMarket := none
  lastSettled : Option String := none
  deriving DecidableEq, Repr

/-- The state of `main` between two iterations: `feedTokens` are the token ids of the feed,
`none` before the feed exists; `log` holds the entries whose rows were written, in order, and
`lost` those whose write raised. -/
structure Driver where
  activeMarket : Option ActiveMarket
  feedTokens : Option (List String)
  lastDiscovery : ℚ
  lastStateSave : ℚ
  engine : UpDownStrategyEngine
  accounts : Dict PaperAccount
  meta : Meta
  log : List LogEntry
  lost : List LogEntry
  deriving DecidableEq

/-- `main`'s state as its loop starts, with the accounts `load_state` returned. -/
def Driver.start (cfg : StrategyConfig) (mode : Mode) (accounts : Dict PaperAccount)
    (meta : Meta) : Driver :=
  { activeMarket := none, feedTokens := none, lastDiscovery := 0.0, lastStateSave := 0.0,
    engine := new cfg mode, accounts := accounts, meta := meta, log := [], lost := [] }

/-- `main`'s state as its loop starts from the state file: the accounts `load_state` returns and
the engine of `--mode`, or `none` when a loaded float is not finite, since the engine's accounts
hold rationals. Of the `meta` it returns, `main` reads nothing: it only writes the two keys
`Meta` keeps, so they start unset. -/
def Driver.load (py : PyBuiltins) (cfg : StrategyConfig) (mode : Mode) (startBalances : Dict ℚ)
    (file : StateFile) : Option Driver :=
  ((loadState py cfg startBalances file).1.traverse PyPaperAccount.toAccount?).map fun accounts =>
    Driver.start cfg mode accounts {}

/-- Without a state file, or with a truncated one, `main` starts from the fresh balances. -/
theorem Driver.load_fresh (py : PyBuiltins) (cfg : StrategyConfig) (mode : Mode)
    (startBalances : Dict ℚ) {file : StateFile} (fresh : file = .missing ∨ file = .truncated) :
    Driver.load py cfg mode startBalances file =
      some (Driver.start cfg mode (freshAccounts cfg.symbols startBalances) {}) := by
  rcases fresh with rfl | rfl <;>
    simp [Driver.load, loadState, Dict.traverse_map PaperAccount.toPy PyPaperAccount.toAccount?
      (fun acct => acct) PaperAccount.toPy_toAccount?]

/-- What one iteration reads from the world: `utcnow()` at its top (`now`) and in discovery
(`discoveryNow`), `time.time()` at the discovery check and stamp (`clock`, one reading for both)
and at the state-save check (`saveClock`); the listing (`none` when `gamma_list_markets` raises,
which discovery catches; an item that is not a dict is the `AttributeError` of its `m.get`) and
`gamma_get_market_by_slug` as discovery reads it; the books the engine steps on and how each of
the tick's `log_fill` calls ends, in order (`true` when it returns); the clock and books of
settlement's polls, and whether its `log_result` returns. -/
structure LoopInputs where
  now : ℚ
  clock : ℚ
  listing : Option (List (Except PyError GammaMarket))
  bySlug : String → Except PyError (Option GammaMarket)
  discoveryNow : ℚ
  store : OrderBookStore
  writes : Stream' Bool
  settleStart : ℚ
  polls : List (ℚ × OrderBookStore)
  final : OrderBookStore
  resultWrites : Bool
  saveClock : ℚ

section Iteration

variable (cfg : StrategyConfig) (onlySymbol : Option String)

/-- The discovery block of an iteration: with no market bound or `discovery_refresh_sec` past,
stamp the clock, and bind what discovery returns unless it has the bound market's slug,
resetting the engine and pointing the feed at its tokens. An exception of
`discover_next_market` leaves `main`. -/
def Driver.discover (d : Driver) (inp : LoopInputs) : Except PyError Driver :=
  if d.activeMarket = none ∨ cfg.discoveryRefreshSec ≤ inp.clock - d.lastDiscovery then
    let d := { d with lastDiscovery := inp.clock }
    (discoverNextMarket cfg onlySymbol inp.listing inp.bySlug inp.discoveryNow).map fun
      | some nxt =>
        if d.activeMarket.all fun mkt => nxt.slug != mkt.slug then
          { d with
            activeMarket := some nxt
            engine := resetForNewMarket cfg d.engine
            feedTokens := some [nxt.upToken, nxt.downToken]
            meta := { d.meta with activeMarket := some nxt } }
        else d
      | none => d
  else .ok d

/-- What a tick of `mkt` leaves: the engine and the account it returned, the fills whose rows
were written in the log, and the fill whose `log_fill` raised, if one did, lost. -/
def Driver.recordTick (d : Driver) (mkt : ActiveMarket) (engine : UpDownStrategyEngine)
    (acct : PaperAccount) (fills : List Fill) (raised : Bool) : Driver :=
  { d with
    engine := engine
    accounts := d.accounts.insert mkt.symbol acct
    log := d.log ++ (writtenFills fills raised).map .fill
    lost := d.lost ++ (raisedFills fills raised).map .fill }

/-- What a settlement of `mkt` that returned leaves: the settled account, its result logged,
`meta["last_settled"]` and `meta["active_market"]` written and the market unbound. -/
def Driver.recordResult (d : Driver) (mkt : ActiveMarket) (acct : PaperAccount)
    (res : MarketResult) : Driver :=
  { d with
    accounts := d.accounts.insert mkt.symbol acct
    log := d.log ++ [.result res]
    meta := { activeMarket := none, lastSettled := some mkt.slug }
    activeMarket := none }

/-- What a settlement of `mkt` whose `log_result` raised leaves: the settled account, and its
result lost; the `continue` skips the rest, so the market stays bound. -/
def Driver.recordLostResult (d : Driver) (mkt : ActiveMarket) (acct : PaperAccount)
    (res : MarketResult) : Driver :=
  { d with
    accounts := d.accounts.insert mkt.symbol acct
    lost := d.lost ++ [.result res] }

/-- The state-save check at the end of an iteration: three seconds after the last save, stamp
the clock; `save_state` swallows its own exceptions, and `Persist.State` models its file. -/
def Driver.saveCheck (d : Driver) (saveClock : ℚ) : Driver :=
  if 3.0 ≤ saveClock - d.lastStateSave then { d with lastStateSave := saveClock } else d

/-- One iteration of `main`'s loop, with `fuel` for the engine's hedge loop: `some (.ok d)` when
it returns, `some (.error e)` when an exception leaves `main`, and `none` when a hedge loop does
not stop. -/
def mainIteration (fuel : ℕ) (d : Driver) (inp : LoopInputs) : Option (Except PyError Driver) :=
  match d.discover cfg onlySymbol inp with
  | .error e => some (.error e)
  | .ok d =>
    match d.activeMarket, d.feedTokens with
    | some mkt, some _ =>
      match d.accounts.get? mkt.symbol with
      | none => some (.error .keyError)
      | some acct =>
        match stepLogged cfg mkt fuel inp.writes d.engine inp.store acct with
        | none => none
        | some ((engine, acct, fills), raised) =>
          let d := d.recordTick mkt engine acct fills raised
          if mkt.endTime + cfg.settleGraceSec ≤ inp.now then
            match settleMarketLogged cfg mkt inp.resultWrites inp.settleStart inp.polls inp.final
                acct with
            | ((acct, res), true) => some (.ok (d.recordLostResult mkt acct res))
            | ((acct, res), false) => some (.ok ((d.recordResult mkt acct res).saveCheck inp.saveClock))
          else some (.ok (d.saveCheck inp.saveClock))
    | _, _ => some (.ok d)

end Iteration

/-- The states a run of `main` reaches from `start`: iterations under any inputs that return. -/
inductive DriverRun (cfg : StrategyConfig) (onlySymbol : Option String) (start : Driver) :
    Driver → Prop
  | start : DriverRun cfg onlySymbol start start
  | iterate {d d' : Driver} (fuel : ℕ) (inp : LoopInputs) : DriverRun cfg onlySymbol start d →
      mainIteration cfg onlySymbol fuel d inp = some (.ok d') → DriverRun cfg onlySymbol start d'

/-! ### What an iteration does -/

section Cases

variable {cfg : StrategyConfig} {onlySymbol : Option String} {fuel : ℕ} {d d' D : Driver}
  {inp : LoopInputs}

@[simp] theorem Driver.saveCheck_accounts (saveClock : ℚ) :
    (d.saveCheck saveClock).accounts = d.accounts := by
  unfold Driver.saveCheck; split_ifs <;> rfl

@[simp] theorem Driver.saveCheck_log (saveClock : ℚ) : (d.saveCheck saveClock).log = d.log := by
  unfold Driver.saveCheck; split_ifs <;> rfl

@[simp] theorem Driver.saveCheck_lost (saveClock : ℚ) : (d.saveCheck saveClock).lost = d.lost := by
  unfold Driver.saveCheck; split_ifs <;> rfl

@[simp] theorem Driver.saveCheck_engine (saveClock : ℚ) :
    (d.saveCheck saveClock).engine = d.engine := by
  unfold Driver.saveCheck; split_ifs <;> rfl

@[simp] theorem Driver.saveCheck_activeMarket (saveClock : ℚ) :
    (d.saveCheck saveClock).activeMarket = d.activeMarket := by
  unfold Driver.saveCheck; split_ifs <;> rfl

@[simp] theorem Driver.saveCheck_meta (saveClock : ℚ) : (d.saveCheck saveClock).meta = d.meta := by
  unfold Driver.saveCheck; split_ifs <;> rfl

/-- The discovery block leaves the accounts and the logs alone. -/
theorem Driver.discover_frame (found : d.discover cfg onlySymbol inp = .ok D) :
    D.accounts = d.accounts ∧ D.log = d.log ∧ D.lost = d.lost := by
  simp only [Driver.discover] at found
  split_ifs at found
  · obtain ⟨picked, -, rfl⟩ := except_map_eq_ok.mp found
    split <;> (try split_ifs) <;> exact ⟨rfl, rfl, rfl⟩
  · cases found
    exact ⟨rfl, rfl, rfl⟩

/-- **What the discovery block does**: it keeps the bound market, the engine and `meta`, or binds
a market that `discover_next_market` returned, resetting the engine and recording the market in
`meta`. -/
theorem Driver.discover_cases (found : d.discover cfg onlySymbol inp = .ok D) :
    (D.activeMarket = d.activeMarket ∧ D.engine = d.engine ∧ D.meta = d.meta) ∨
      ∃ nxt, discoverNextMarket cfg onlySymbol inp.listing inp.bySlug inp.discoveryNow =
          .ok (some nxt) ∧
        D.activeMarket = some nxt ∧ D.engine = resetForNewMarket cfg d.engine ∧
        D.meta = { d.meta with activeMarket := some nxt } := by
  simp only [Driver.discover] at found
  split_ifs at found
  · obtain ⟨picked, discovered, rfl⟩ := except_map_eq_ok.mp found
    rcases picked with _ | nxt
    · exact .inl ⟨rfl, rfl, rfl⟩
    · dsimp only
      split_ifs
      · exact .inr ⟨nxt, discovered, rfl, rfl, rfl⟩
      · exact .inl ⟨rfl, rfl, rfl⟩
  · cases found
    exact .inl ⟨rfl, rfl, rfl⟩

/-- **What an iteration that returns does**: the discovery block, and then, with no market or no
feed, nothing more; otherwise a tick of the engine on the bound market's account, with the rows
of its fills written or lost (`Driver.recordTick`), and, once `now` is `settle_grace_sec` past the
market's end, the market's settlement, with its result logged and the market unbound when
`log_result` returns (`Driver.recordResult`), or its result lost and the market still bound when
it raises (`Driver.recordLostResult`). -/
theorem mainIteration_cases (result : mainIteration cfg onlySymbol fuel d inp = some (.ok d')) :
    ∃ D, d.discover cfg onlySymbol inp = .ok D ∧
      (d' = D ∨
        ∃ mkt acct eng acct' fills raised, D.activeMarket = some mkt ∧
          D.accounts.get? mkt.symbol = some acct ∧
          stepLogged cfg mkt fuel inp.writes D.engine inp.store acct =
            some ((eng, acct', fills), raised) ∧
          ((inp.now < mkt.endTime + cfg.settleGraceSec ∧
              d' = (D.recordTick mkt eng acct' fills raised).saveCheck inp.saveClock) ∨
            (mkt.endTime + cfg.settleGraceSec ≤ inp.now ∧ inp.resultWrites = true ∧
              d' = ((D.recordTick mkt eng acct' fills raised).recordResult mkt
                (settleMarket cfg mkt inp.settleStart inp.polls inp.final acct').1
                (settleMarket cfg mkt inp.settleStart inp.polls inp.final acct').2).saveCheck
                  inp.saveClock) ∨
            (mkt.endTime + cfg.settleGraceSec ≤ inp.now ∧ inp.resultWrites = false ∧
              d' = (D.recordTick mkt eng acct' fills raised).recordLostResult mkt
                (settleMarket cfg mkt inp.settleStart inp.polls inp.final acct').1
                (settleMarket cfg mkt inp.settleStart inp.polls inp.final acct').2))) := by
  simp only [mainIteration] at result
  rcases found : d.discover cfg onlySymbol inp with e | D
  · simp [found] at result
  refine ⟨D, rfl, ?_⟩
  simp only [found] at result
  split at result
  · next mkt _ active _ =>
    split at result
    · cases result
    · next acct bound =>
      split at result
      · cases result
      · next eng acct' fills raised ticked =>
        refine .inr ⟨mkt, acct, eng, acct', fills, raised, active, bound, ticked, ?_⟩
        split_ifs at result with due
        · cases writes : inp.resultWrites <;>
            simp only [settleMarketLogged, writes, Bool.not_false, Bool.not_true, Option.some.injEq,
              Except.ok.injEq] at result
          · exact .inr (.inr ⟨due, rfl, result.symm⟩)
          · exact .inr (.inl ⟨due, rfl, result.symm⟩)
        · exact .inl ⟨not_le.mp due, (Except.ok.inj (Option.some.inj result)).symm⟩
  · exact .inl (Except.ok.inj (Option.some.inj result)).symm

end Cases

/-! ### Accounts over a run -/

/-- Every account of the driver is well formed. -/
def Driver.AccountsWf (d : Driver) : Prop := ∀ entry ∈ d.accounts.entries, AccountWf entry.2

section AccountsWf

variable {cfg : StrategyConfig} {onlySymbol : Option String}

/-- A tick keeps a well-formed account well formed, whatever its writer. -/
theorem stepLogged_wf (free : 0 ≤ cfg.requireFreeCash) {mkt : ActiveMarket} {fuel : ℕ}
    {writes : Stream' Bool} {eng eng' : UpDownStrategyEngine} {store : OrderBookStore}
    {acct acct' : PaperAccount} {fills : List Fill} {raised : Bool}
    (result : stepLogged cfg mkt fuel writes eng store acct = some ((eng', acct', fills), raised))
    (wf : AccountWf acct) : AccountWf acct' :=
  (stepLogged_buys result).2.preserves AccountWf
    (fun _ _ _ _ _ _ _ bought before => (maybeBuy_wf free bought before).1) wf

theorem mainIteration_accountsWf (free : 0 ≤ cfg.requireFreeCash) {fuel : ℕ} {d d' : Driver}
    {inp : LoopInputs} (result : mainIteration cfg onlySymbol fuel d inp = some (.ok d'))
    (wf : d.AccountsWf) : d'.AccountsWf := by
  obtain ⟨D, found, same | ⟨mkt, acct, eng, acct', fills, raised, -, bound, ticked, settled⟩⟩ :=
    mainIteration_cases result
  all_goals
    have discovered : D.AccountsWf := by
      rw [Driver.AccountsWf, (Driver.discover_frame found).1]
      exact wf
  · exact same ▸ discovered
  have stepped : AccountWf acct' := stepLogged_wf free ticked (discovered _ (Dict.mem_of_lookupEntry bound))
  have settledWf := settleMarket_wf cfg mkt inp.settleStart inp.polls inp.final stepped
  rcases settled with ⟨-, rfl⟩ | ⟨-, -, rfl⟩ | ⟨-, -, rfl⟩ <;>
    simp only [Driver.AccountsWf, Driver.saveCheck_accounts, Driver.recordTick, Driver.recordResult,
      Driver.recordLostResult]
  · exact Dict.forall_insert discovered stepped
  all_goals exact Dict.forall_insert (Dict.forall_insert discovered stepped) settledWf

/-- **Every account stays well formed over a run of `main`** that starts from well-formed
accounts: no negative cash, and every position with no negative shares or cost and with shares
exactly when cost, whichever of its audit writes raise. -/
theorem DriverRun.accountsWf (free : 0 ≤ cfg.requireFreeCash) {start d : Driver}
    (run : DriverRun cfg onlySymbol start d) (initial : start.AccountsWf) : d.AccountsWf := by
  induction run with
  | start => exact initial
  | iterate _ _ _ result ih => exact mainIteration_accountsWf free result ih

end AccountsWf

/-! ### Replaying a run -/

section Replay

variable {cfg : StrategyConfig} {onlySymbol : Option String}

/-- The iterations of a run on the given inputs, each with `fuel` for its tick, until one does not
return or raises. -/
def runIterations (cfg : StrategyConfig) (onlySymbol : Option String) (fuel : ℕ) :
    Driver → List LoopInputs → Option (Except PyError Driver)
  | d, [] => some (.ok d)
  | d, inp :: inps =>
    match mainIteration cfg onlySymbol fuel d inp with
    | some (.ok d') => runIterations cfg onlySymbol fuel d' inps
    | stopped => stopped

theorem runIterations_driverRun {fuel : ℕ} {start : Driver} :
    ∀ {inps : List LoopInputs} {d d' : Driver}, DriverRun cfg onlySymbol start d →
      runIterations cfg onlySymbol fuel d inps = some (.ok d') → DriverRun cfg onlySymbol start d'
  | [], _, _, run, result => Except.ok.inj (Option.some.inj result) ▸ run
  | inp :: inps, d, _, run, result => by
    simp only [runIterations] at result
    split at result
    · next d1 iterated => exact runIterations_driverRun (.iterate fuel inp run iterated) result
    · next stopped => exact absurd result (stopped _)

/-- A replayed run whose end passes a test reaches a state that passes it. -/
theorem exists_of_runIterations {fuel : ℕ} {start d : Driver} {inps : List LoopInputs}
    {p : Driver → Bool} (run : DriverRun cfg onlySymbol start d)
    (passes : (runIterations cfg onlySymbol fuel d inps).any (fun r => r.toOption.any p) = true) :
    ∃ d', DriverRun cfg onlySymbol start d' ∧ p d' = true := by
  rcases result : runIterations cfg onlySymbol fuel d inps with _ | _ | d'
  · simp [result] at passes
  · simp [result, Except.toOption] at passes
  · exact ⟨d', runIterations_driverRun run result, by simpa [result, Except.toOption] using passes⟩

end Replay

/-! ### `main`'s start -/

/-- `start_balances`: a hundred dollars on every symbol. -/
def startBalances : Dict ℚ :=
  ⟨[("BTC", 100.0), ("ETH", 100.0), ("SOL", 100.0), ("XRP", 100.0)], by simp⟩

/-- `main`'s start without a state file: the default configuration, `threshold35`, and
`start_balances`. -/
def mainStart : Driver :=
  Driver.start StrategyConfig.default .threshold35
    (freshAccounts StrategyConfig.default.symbols startBalances) {}

/-- `mainStart` is where `main` starts its loop without a state file. -/
theorem mainStart_load (py : PyBuiltins) :
    Driver.load py StrategyConfig.default .threshold35 startBalances .missing = some mainStart :=
  Driver.load_fresh py _ _ _ (.inl rfl)

/-- The listing of `sampleMarket`, ending at 1000. -/
def sampleListing : GammaMarket := ⟨"btc-updown-15m-1", some ⟨1000, true⟩, "c", ["U", "D"]⟩

/-- The next market of the symbol, ending fifteen minutes later. -/
def nextListing : GammaMarket := ⟨"btc-updown-15m-2", some ⟨1900, true⟩, "c2", ["U2", "D2"]⟩

/-- An iteration at time `t`: every clock reads `t`, the listing is `listing`, the engine sees
`store`, settlement polls it at `t` and stops at `t + 180`, and every write returns. -/
def inputsAt (t : ℚ) (listing : List GammaMarket) (store : OrderBookStore) : LoopInputs :=
  { now := t, clock := t, listing := some (listing.map .ok), bySlug := fun _ => .ok none,
    discoveryNow := t, store := store, writes := Stream'.const true, settleStart := t,
    polls := [(t, store), (t + 180, store)], final := store, resultWrites := true, saveClock := t }

/-! ### Markets left unsettled, and settled twice -/

/-- **A discovery refresh after a market's end replaces it while it holds shares**: bound at 0,
`sampleMarket` trades; at 1100 it has ended, and the refresh, which comes before the settlement
check, finds that the future filter prefers the next market and binds it. The first market's
shares are still held, and it has no result. -/
theorem driver_rebinds_unsettled_market : ∃ d, DriverRun StrategyConfig.default none mainStart d ∧
    d.activeMarket.map ActiveMarket.slug = some nextListing.slug ∧
    (∃ f ∈ d.log.filterMap LogEntry.fill?, f.slug = sampleMarket.slug) ∧
    (∀ r ∈ d.log.filterMap LogEntry.result?, r.slug ≠ sampleMarket.slug) ∧
    ∃ acct, d.accounts.get? sampleMarket.symbol = some acct ∧
      0 < (acct.position sampleMarket.upToken).shares := by
  obtain ⟨d, run, passes⟩ := exists_of_runIterations .start
    (show (runIterations StrategyConfig.default none 10 mainStart
      [inputsAt 0 [sampleListing, nextListing] (bookPair [(0.30, 100)] [(0.30, 100)]),
        inputsAt 1100 [sampleListing, nextListing] (bookPair [(0.30, 100)] [(0.30, 100)])]).any
      (fun r => r.toOption.any fun d =>
        decide (d.activeMarket.map ActiveMarket.slug = some nextListing.slug) &&
        decide (∃ f ∈ d.log.filterMap LogEntry.fill?, f.slug = sampleMarket.slug) &&
        decide (∀ r ∈ d.log.filterMap LogEntry.result?, r.slug ≠ sampleMarket.slug) &&
        (d.accounts.get? sampleMarket.symbol).any fun acct =>
          decide (0 < (acct.position sampleMarket.upToken).shares)) = true
      by with_unfolding_all decide)
  simp only [Bool.and_eq_true, decide_eq_true_eq] at passes
  obtain ⟨⟨⟨bound, traded⟩, unsettled⟩, held⟩ := passes
  rcases found : d.accounts.get? sampleMarket.symbol with _ | acct
  · simp [found] at held
  · exact ⟨d, run, bound, traded, unsettled, acct, found, by simpa [found] using held⟩

/-- **Right after a settlement, discovery's fallback binds the settled market again**: with the
next market not listed yet, no listed market ends in the future, and discovery returns the one
ending nearest to now, the market just settled. It is bound anew, trades, and is settled a second
time; `meta["last_settled"]` is written but never read. -/
theorem driver_settles_market_twice : ∃ d, DriverRun StrategyConfig.default none mainStart d ∧
    2 ≤ ((d.log.filterMap LogEntry.result?).map MarketResult.slug).count sampleMarket.slug ∧
    ∃ f ∈ (d.log.dropWhile fun e =>
        e.result?.map MarketResult.slug != some sampleMarket.slug).filterMap LogEntry.fill?,
      f.slug = sampleMarket.slug := by
  obtain ⟨d, run, passes⟩ := exists_of_runIterations .start
    (show (runIterations StrategyConfig.default none 10 mainStart
      [inputsAt 0 [sampleListing] (bookPair [(0.30, 100)] [(0.30, 100)]),
        inputsAt 1200 [sampleListing] (bookPair [(0.30, 100)] [(0.30, 100)]),
        inputsAt 1201 [sampleListing] (bookPair [(0.30, 100)] [(0.30, 100)])]).any
      (fun r => r.toOption.any fun d =>
        decide (2 ≤ ((d.log.filterMap LogEntry.result?).map MarketResult.slug).count
          sampleMarket.slug) &&
        decide (∃ f ∈ (d.log.dropWhile fun e =>
            e.result?.map MarketResult.slug != some sampleMarket.slug).filterMap LogEntry.fill?,
          f.slug = sampleMarket.slug)) = true
      by with_unfolding_all decide)
  simp only [Bool.and_eq_true, decide_eq_true_eq] at passes
  exact ⟨d, run, passes⟩

end PaperTrader
