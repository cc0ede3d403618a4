/-
**`UpDownStrategyEngine`: one tick of the strategy.**

The engine's per-market state and its methods, in the source's order:

* `maybeBuy` — `_maybe_buy`: a chunk against the ask ladder, skipped without the budget plus
  `require_free_cash` in cash or without liquidity;
* `dcaIfTrigger` — `_dca_if_trigger`: the primary side's entry and DCA ladder;
* `hedgeLoop`, `hedgeChunks` — `_hedge_chunks`: chunks on the other side while its cost is behind
  the primary's; the `while` loop is run with `fuel` iterations at most (`none` when they run
  out, that is when the loop has not stopped);
* `stepThreshold35`, `spreadCapture`, `stepSpread73_22`, `step` — the two modes and the dispatch.

`step_cases` and `stepThreshold35_cases` say once what a tick is made of. The engine reads the
store only through `OrderBookStore.get` and writes the account only through `maybeBuy`;
`step_buys` states the second fact for every tick of either mode.
-/

import PaperTrader.Book.Consume

namespace PaperTrader

/-- The side a hedge buys: the other one. -/
def Side.other : Side → Side
  | .up => .down
  | .down => .up

/-- A market's token for a side. -/
def ActiveMarket.token (mkt : ActiveMarket) : Side → String
  | .up => mkt.upToken
  | .down => mkt.downToken

/-- A value for each side: the engine's `{"UP": ..., "DOWN": ...}` dictionaries. -/
structure PerSide (α : Type) where
  up : α
  down : α
  deriving DecidableEq, Repr

namespace PerSide

variable {α : Type}

/-- `values[side]`. -/
def get (values : PerSide α) : Side → α
  | .up => values.up
  | .down => values.down

/-- `values[side] = value`. -/
def set (values : PerSide α) (side : Side) (value : α) : PerSide α :=
  match side with
  | .up => { values with up := value }
  | .down => { values with down := value }

end PerSide

/-- The engine's state: its mode and its per-market scratch state. -/
structure UpDownStrategyEngine where
  mode : Mode
  primary : Option Side
  nextDcaThreshold : PerSide ℚ
  dcaBuysDone : PerSide ℕ
  deriving DecidableEq, Repr

namespace UpDownStrategyEngine

/-- `reset_for_new_market`: no primary side, both thresholds at the entry price, no DCA buys. -/
def resetForNewMarket (cfg : StrategyConfig) (eng : UpDownStrategyEngine) : UpDownStrategyEngine :=
  { eng with
    primary := none
    nextDcaThreshold := ⟨cfg.entryAskCents / 100.0, cfg.entryAskCents / 100.0⟩
    dcaBuysDone := ⟨0, 0⟩ }

/-- `UpDownStrategyEngine(cfg, mode)`: the mode, then a reset. -/
def new (cfg : StrategyConfig) (mode : Mode) : UpDownStrategyEngine :=
  resetForNewMarket cfg ⟨mode, none, ⟨0, 0⟩, ⟨0, 0⟩⟩

end UpDownStrategyEngine

/-- The account after buying `shares` of `tokenId` for `spent` dollars: the three mutations of
`_maybe_buy`. -/
def PaperAccount.credit (acct : PaperAccount) (tokenId : String) (shares spent : ℚ) :
    PaperAccount :=
  { acct with
    cash := acct.cash - spent
    positions := acct.positions.insert tokenId
      ⟨(acct.position tokenId).shares + shares, (acct.position tokenId).costUsd + spent⟩ }

namespace UpDownStrategyEngine

section Methods

variable (cfg : StrategyConfig) (mkt : ActiveMarket)

/-- `_maybe_buy(mkt, token_id, ob, acct, flog, usd, note)`: the account after the buy and the
fill it logs, if any. -/
def maybeBuy (tokenId : String) (ob : OrderBook) (acct : PaperAccount) (usd : ℚ) (note : String) :
    PaperAccount × Option Fill :=
  if usd ≤ 0 then (acct, none)
  else if acct.cash < usd + cfg.requireFreeCash then (acct, none)
  else
    let (shares, avg, spent) := consumeAsksForBuy ob usd
    if shares ≤ 0 ∨ spent ≤ 0 then (acct, none)
    else
      (acct.credit tokenId shares spent,
        some { slug := mkt.slug, symbol := mkt.symbol, tokenId := tokenId, side := "BUY",
               price := avg, shares := shares, usd := spent, note := note })

/-- `_dca_if_trigger(mkt, side_label, token_id, ob, best_ask, acct, flog)`. -/
def dcaIfTrigger (eng : UpDownStrategyEngine) (side : Side) (tokenId : String) (ob : OrderBook)
    (bestAsk : ℚ) (acct : PaperAccount) : UpDownStrategyEngine × PaperAccount × List Fill :=
  if cfg.maxSideSpendUsd ≤ (acct.position tokenId).costUsd then (eng, acct, [])
  else
    let threshold := eng.nextDcaThreshold.get side
    if bestAsk ≤ threshold then
      if eng.dcaBuysDone.get side ≤ cfg.dcaLevels then
        let (acct', fill) := maybeBuy cfg mkt tokenId ob acct cfg.buyChunkUsd
          (side.label ++ "_entry_or_dca")
        ({ eng with
            dcaBuysDone := eng.dcaBuysDone.set side (eng.dcaBuysDone.get side + 1)
            nextDcaThreshold := eng.nextDcaThreshold.set side
              (clamp (threshold - cfg.dcaStepCents / 100.0) 0.01 0.99) },
          acct', fill.toList)
      else (eng, acct, [])
    else (eng, acct, [])

/-- The `while` loop of `_hedge_chunks`, from the two positions it holds, with at most `fuel`
checks of its condition: the account and the fills when it stops, `none` when `fuel` runs out. -/
def hedgeLoop (primaryToken hedgeToken : String) (hedgeOb : OrderBook) :
    ℕ → Position → Position → PaperAccount → Option (PaperAccount × List Fill)
  | 0, _, _, _ => none
  | fuel + 1, primaryPos, hedgePos, acct =>
    if hedgePos.costUsd + epsilon < primaryPos.costUsd then
      if cfg.maxSideSpendUsd ≤ hedgePos.costUsd then some (acct, [])
      else
        let (estShares, estAvg, estSpent) := consumeAsksForBuy hedgeOb cfg.buyChunkUsd
        if estShares ≤ 0 ∨ estSpent ≤ 0 then some (acct, [])
        else if cfg.sumCapDollars ≤ primaryPos.avgPrice + estAvg then some (acct, [])
        else
          let (acct', fill) := maybeBuy cfg mkt hedgeToken hedgeOb acct cfg.buyChunkUsd
            "hedge_chunk_sumcap_ok"
          (hedgeLoop primaryToken hedgeToken hedgeOb fuel (acct'.position primaryToken)
              (acct'.position hedgeToken) acct').map
            fun (acct'', fills) => (acct'', fill.toList ++ fills)
    else some (acct, [])

/-- `_hedge_chunks(mkt, primary_token, hedge_token, primary_pos, hedge_pos, hedge_ob, hedge_ask,
acct, flog)`, with `fuel` for its loop. -/
def hedgeChunks (fuel : ℕ) (primaryToken hedgeToken : String) (primaryPos hedgePos : Position)
    (hedgeOb : OrderBook) (hedgeAsk : ℚ) (acct : PaperAccount) :
    Option (PaperAccount × List Fill) :=
  if cfg.entryAskCents / 100.0 < hedgeAsk then some (acct, [])
  else hedgeLoop cfg mkt primaryToken hedgeToken hedgeOb fuel primaryPos hedgePos acct

/-- The primary side's choice in `_step_threshold35`: the first side whose ask is at the entry
price, `UP` before `DOWN`, once. -/
def choosePrimary (eng : UpDownStrategyEngine) (upAsk downAsk : ℚ) : UpDownStrategyEngine :=
  match eng.primary with
  | some _ => eng
  | none =>
    if upAsk ≤ cfg.entryAskCents / 100.0 then { eng with primary := some .up }
    else if downAsk ≤ cfg.entryAskCents / 100.0 then { eng with primary := some .down }
    else eng

/-- `_step_threshold35(mkt, up_ob, down_ob, up_ask, down_ask, acct, flog)`, with `fuel` for the
hedge loop. -/
def stepThreshold35 (fuel : ℕ) (eng : UpDownStrategyEngine) (upOb downOb : OrderBook)
    (upAsk downAsk : ℚ) (acct : PaperAccount) :
    Option (UpDownStrategyEngine × PaperAccount × List Fill) :=
  let eng := choosePrimary cfg eng upAsk downAsk
  let (eng, acct, dcaFills) :=
    match eng.primary with
    | some .up => dcaIfTrigger cfg mkt eng .up mkt.upToken upOb upAsk acct
    | some .down => dcaIfTrigger cfg mkt eng .down mkt.downToken downOb downAsk acct
    | none => (eng, acct, [])
  let upPos := acct.position mkt.upToken
  let downPos := acct.position mkt.downToken
  let hedged :=
    match eng.primary with
    | some .up =>
      if 0 < upPos.costUsd then
        hedgeChunks cfg mkt fuel mkt.upToken mkt.downToken upPos downPos downOb downAsk acct
      else some (acct, [])
    | some .down =>
      if 0 < downPos.costUsd then
        hedgeChunks cfg mkt fuel mkt.downToken mkt.upToken downPos upPos upOb upAsk acct
      else some (acct, [])
    | none => some (acct, [])
  hedged.map fun (acct, hedgeFills) => (eng, acct, dcaFills ++ hedgeFills)

/-- One block of `_step_spread73_22`: when the expensive side's ask is at least `expensive_min`,
the cheap side's at most `cheap_max` and their sum below `spread_sum_cap`, a chunk on the
expensive side, then one on the cheap side. -/
def spreadCapture (expensiveToken : String) (expensiveOb : OrderBook) (expensiveAsk : ℚ)
    (expensiveNote : String) (cheapToken : String) (cheapOb : OrderBook) (cheapAsk : ℚ)
    (cheapNote : String) (acct : PaperAccount) : PaperAccount × List Fill :=
  if cfg.expensiveMin ≤ expensiveAsk ∧ cheapAsk ≤ cfg.cheapMax ∧
      expensiveAsk + cheapAsk < cfg.spreadSumCap then
    let (acct, expensiveFill) :=
      maybeBuy cfg mkt expensiveToken expensiveOb acct cfg.buyChunkUsd expensiveNote
    let (acct, cheapFill) := maybeBuy cfg mkt cheapToken cheapOb acct cfg.buyChunkUsd cheapNote
    (acct, expensiveFill.toList ++ cheapFill.toList)
  else (acct, [])

/-- `_step_spread73_22(mkt, up_ob, down_ob, up_ask, down_ask, acct, flog)`: the block with `UP`
expensive, then the block with `DOWN` expensive. -/
def stepSpread73_22 (upOb downOb : OrderBook) (upAsk downAsk : ℚ) (acct : PaperAccount) :
    PaperAccount × List Fill :=
  let (acct, upExpensive) := spreadCapture cfg mkt mkt.upToken upOb upAsk "spread73_22_up_exp"
    mkt.downToken downOb downAsk "spread73_22_down_cheap" acct
  let (acct, downExpensive) := spreadCapture cfg mkt mkt.downToken downOb downAsk
    "spread73_22_down_exp" mkt.upToken upOb upAsk "spread73_22_up_cheap" acct
  (acct, upExpensive ++ downExpensive)

/-- `step(mkt, store, acct, flog)`, with `fuel` for the hedge loop: nothing unless both books have
a bid and an ask, then the engine's mode. -/
def step (fuel : ℕ) (eng : UpDownStrategyEngine) (store : OrderBookStore) (acct : PaperAccount) :
    Option (UpDownStrategyEngine × PaperAccount × List Fill) :=
  let upOb := store.get mkt.upToken
  let downOb := store.get mkt.downToken
  match upOb.bestAsk, downOb.bestAsk, upOb.bestBid, downOb.bestBid with
  | some upAsk, some downAsk, some _, some _ =>
    match eng.mode with
    | .threshold35 => stepThreshold35 cfg mkt fuel eng upOb downOb upAsk downAsk acct
    | .spread73_22 =>
      let (acct, fills) := stepSpread73_22 cfg mkt upOb downOb upAsk downAsk acct
      some (eng, acct, fills)
  | _, _, _, _ => some (eng, acct, [])

end Methods

end UpDownStrategyEngine

/-! ### What a tick does to the account -/

namespace UpDownStrategyEngine

section Buys

variable {cfg : StrategyConfig} {mkt : ActiveMarket}

/-- **What `_maybe_buy` can do:** nothing, or, with a positive budget it can afford with
`require_free_cash` to spare and an ask ladder that fills some of it, credit the shares and cost
of the fill and log it. -/
theorem maybeBuy_cases {tokenId : String} {ob : OrderBook} {acct acct' : PaperAccount} {usd : ℚ}
    {note : String} {fill : Option Fill}
    (result : maybeBuy cfg mkt tokenId ob acct usd note = (acct', fill)) :
    (acct' = acct ∧ fill = none) ∨
      (0 < usd ∧ usd + cfg.requireFreeCash ≤ acct.cash ∧ 0 < (consumeAsksForBuy ob usd).1 ∧
        0 < (consumeAsksForBuy ob usd).2.2 ∧
        acct' = acct.credit tokenId (consumeAsksForBuy ob usd).1 (consumeAsksForBuy ob usd).2.2 ∧
        fill = some
          { slug := mkt.slug, symbol := mkt.symbol, tokenId := tokenId, side := "BUY",
            price := (consumeAsksForBuy ob usd).2.1, shares := (consumeAsksForBuy ob usd).1,
            usd := (consumeAsksForBuy ob usd).2.2, note := note }) := by
  rcases consumed : consumeAsksForBuy ob usd with ⟨shares, avg, spent⟩
  simp only [maybeBuy, consumed] at result
  have unchanged : (acct, none) = (acct', fill) → (acct' = acct ∧ fill = none) :=
    fun same => ⟨(Prod.mk.inj same).1.symm, (Prod.mk.inj same).2.symm⟩
  split_ifs at result with free broke empty
  · exact .inl (unchanged result)
  · exact .inl (unchanged result)
  · exact .inl (unchanged result)
  · push_neg at free broke empty
    obtain ⟨rfl, rfl⟩ := Prod.mk.inj result
    exact .inr ⟨free, broke, empty.1, empty.2, rfl, rfl⟩

end Buys

end UpDownStrategyEngine

/-- `acct'` comes from `acct` through chunk buys of `_maybe_buy`, each of a token, against a book
and under a note that `allowed` admits in the account it is made from; `fills` are what they log,
in order. -/
inductive BuysThrough (cfg : StrategyConfig) (mkt : ActiveMarket)
    (allowed : PaperAccount → String → OrderBook → String → Prop) :
    PaperAccount → PaperAccount → List Fill → Prop
  | done (acct : PaperAccount) : BuysThrough cfg mkt allowed acct acct []
  | buy {acct acct' acct'' : PaperAccount} {fills : List Fill} (tokenId : String)
      (ob : OrderBook) (note : String) (fill : Option Fill) :
      allowed acct tokenId ob note →
      UpDownStrategyEngine.maybeBuy cfg mkt tokenId ob acct cfg.buyChunkUsd note = (acct', fill) →
      BuysThrough cfg mkt allowed acct' acct'' fills →
      BuysThrough cfg mkt allowed acct acct'' (fill.toList ++ fills)

namespace BuysThrough

variable {cfg : StrategyConfig} {mkt : ActiveMarket}
  {allowed : PaperAccount → String → OrderBook → String → Prop}
  {acct acct' acct'' : PaperAccount} {fills fills' : List Fill}

theorem single {tokenId : String} {ob : OrderBook} {note : String} {fill : Option Fill}
    (permit : allowed acct tokenId ob note)
    (result : UpDownStrategyEngine.maybeBuy cfg mkt tokenId ob acct cfg.buyChunkUsd note =
      (acct', fill)) :
    BuysThrough cfg mkt allowed acct acct' fill.toList := by
  simpa using BuysThrough.buy tokenId ob note fill permit result (.done acct')

theorem trans (first : BuysThrough cfg mkt allowed acct acct' fills)
    (second : BuysThrough cfg mkt allowed acct' acct'' fills') :
    BuysThrough cfg mkt allowed acct acct'' (fills ++ fills') := by
  induction first with
  | done => exact second
  | buy tokenId ob note fill permit result _ ih =>
    simpa using BuysThrough.buy tokenId ob note fill permit result (ih second)

theorem mono {weaker : PaperAccount → String → OrderBook → String → Prop}
    (implies : ∀ acct tokenId ob note, allowed acct tokenId ob note → weaker acct tokenId ob note)
    (through : BuysThrough cfg mkt allowed acct acct' fills) :
    BuysThrough cfg mkt weaker acct acct' fills := by
  induction through with
  | done => exact .done _
  | buy tokenId ob note fill permit result _ ih =>
    exact .buy tokenId ob note fill (implies _ _ _ _ permit) result ih

/-- **An account property every allowed buy keeps holds after all of them.** -/
theorem preserves (P : PaperAccount → Prop)
    (keep : ∀ acct acct' tokenId ob note fill, allowed acct tokenId ob note →
      UpDownStrategyEngine.maybeBuy cfg mkt tokenId ob acct cfg.buyChunkUsd note = (acct', fill) →
      P acct → P acct')
    (through : BuysThrough cfg mkt allowed acct acct' fills) (start : P acct) : P acct' := by
  induction through with
  | done => exact start
  | buy tokenId ob note fill permit result _ ih => exact ih (keep _ _ _ _ _ _ permit result start)

/-- Every logged fill comes from an allowed buy, made from an account with every property that
the buys keep: its token, note and price are that buy's. -/
theorem fill_spec (P : PaperAccount → Prop)
    (keep : ∀ acct acct' tokenId ob note fill, allowed acct tokenId ob note →
      UpDownStrategyEngine.maybeBuy cfg mkt tokenId ob acct cfg.buyChunkUsd note = (acct', fill) →
      P acct → P acct')
    (through : BuysThrough cfg mkt allowed acct acct' fills) (start : P acct) :
    ∀ f ∈ fills, ∃ before ob, P before ∧ allowed before f.tokenId ob f.note ∧
      f.price = (consumeAsksForBuy ob cfg.buyChunkUsd).2.1 := by
  induction through with
  | done => simp
  | buy tokenId ob note fill permit result _ ih =>
    intro f member
    rcases List.mem_append.mp member with here | later
    · rcases UpDownStrategyEngine.maybeBuy_cases result with ⟨_, rfl⟩ | ⟨_, _, _, _, _, rfl⟩
      · simp at here
      · simp only [Option.toList_some, List.mem_singleton] at here
        subst here
        exact ⟨_, ob, start, permit, rfl⟩
    · exact ih (keep _ _ _ _ _ _ permit result start) f later

end BuysThrough

/-! ### The buys of each method -/

/-- The buys the DCA ladder of a side may make: a chunk of the side's token, under the side's
note, while the token's cost is below `max_side_spend_usd`. -/
def dcaChunk (cfg : StrategyConfig) (tokenId label : String) :
    PaperAccount → String → OrderBook → String → Prop :=
  fun acct t _ note =>
    t = tokenId ∧ note = label ++ "_entry_or_dca" ∧ (acct.position t).costUsd < cfg.maxSideSpendUsd

/-- The buys the hedge loop may make: a chunk of the hedge token while its cost is below
`max_side_spend_usd` and more than `1e-9` behind the primary's, and while the primary's average
plus the chunk's own average stays below `sum_cap_dollars`. -/
def hedgeChunk (cfg : StrategyConfig) (primaryToken hedgeToken : String) :
    PaperAccount → String → OrderBook → String → Prop :=
  fun acct t ob note =>
    t = hedgeToken ∧ note = "hedge_chunk_sumcap_ok" ∧
      (acct.position t).costUsd < cfg.maxSideSpendUsd ∧
      (acct.position t).costUsd + epsilon < (acct.position primaryToken).costUsd ∧
      (acct.position primaryToken).avgPrice + (consumeAsksForBuy ob cfg.buyChunkUsd).2.1 <
        cfg.sumCapDollars

/-- The buys of `_step_spread73_22`: a chunk of either token of the market, under one of the
notes of its two blocks. -/
def spreadChunk (mkt : ActiveMarket) : PaperAccount → String → OrderBook → String → Prop :=
  fun _ t _ note => (t = mkt.upToken ∨ t = mkt.downToken) ∧
    note ∈ ["spread73_22_up_exp", "spread73_22_down_cheap", "spread73_22_down_exp",
      "spread73_22_up_cheap"]

namespace UpDownStrategyEngine

variable {cfg : StrategyConfig} {mkt : ActiveMarket}

theorem dcaIfTrigger_buys {eng eng' : UpDownStrategyEngine} {side : Side} {tokenId : String}
    {ob : OrderBook} {bestAsk : ℚ} {acct acct' : PaperAccount} {fills : List Fill}
    (result : dcaIfTrigger cfg mkt eng side tokenId ob bestAsk acct = (eng', acct', fills)) :
    eng'.mode = eng.mode ∧ eng'.primary = eng.primary ∧
      BuysThrough cfg mkt (dcaChunk cfg tokenId side.label) acct acct' fills := by
  rcases bought : maybeBuy cfg mkt tokenId ob acct cfg.buyChunkUsd (side.label ++ "_entry_or_dca")
    with ⟨acct1, fill⟩
  simp only [dcaIfTrigger, bought] at result
  split_ifs at result with capped
  · obtain ⟨rfl, rfl, rfl⟩ := result
    exact ⟨rfl, rfl, .done _⟩
  · obtain ⟨rfl, rfl, rfl⟩ := result
    exact ⟨rfl, rfl, .single ⟨rfl, rfl, not_le.mp capped⟩ bought⟩
  all_goals
    obtain ⟨rfl, rfl, rfl⟩ := result
    exact ⟨rfl, rfl, .done _⟩

theorem hedgeLoop_buys {primaryToken hedgeToken : String} {hedgeOb : OrderBook} :
    ∀ {fuel : ℕ} {acct acct' : PaperAccount} {fills : List Fill},
      hedgeLoop cfg mkt primaryToken hedgeToken hedgeOb fuel (acct.position primaryToken)
          (acct.position hedgeToken) acct = some (acct', fills) →
      BuysThrough cfg mkt (hedgeChunk cfg primaryToken hedgeToken) acct acct' fills := by
  intro fuel
  induction fuel with
  | zero => intro _ _ _ result; simp [hedgeLoop] at result
  | succ fuel ih =>
    intro acct acct' fills result
    rcases estimate : consumeAsksForBuy hedgeOb cfg.buyChunkUsd with ⟨estShares, estAvg, estSpent⟩
    rcases bought : maybeBuy cfg mkt hedgeToken hedgeOb acct cfg.buyChunkUsd
      "hedge_chunk_sumcap_ok" with ⟨acct1, fill⟩
    simp only [hedgeLoop, estimate, bought] at result
    split_ifs at result with behind capped empty over <;>
      first
        | (obtain ⟨rfl, rfl⟩ := Prod.mk.inj (Option.some.inj result); exact .done _)
        | (obtain ⟨⟨acct2, rest⟩, inner, same⟩ := Option.map_eq_some'.mp result
           obtain ⟨rfl, rfl⟩ := Prod.mk.inj same
           refine .buy hedgeToken hedgeOb _ fill ⟨rfl, rfl, not_le.mp capped, behind, ?_⟩ bought
             (ih inner)
           simpa [estimate] using not_le.mp over)

theorem choosePrimary_mode (eng : UpDownStrategyEngine) (upAsk downAsk : ℚ) :
    (choosePrimary cfg eng upAsk downAsk).mode = eng.mode := by
  unfold choosePrimary
  split
  · rfl
  · split_ifs <;> rfl

/-- The hedge part of `_step_threshold35` for the primary `side`. -/
theorem hedgeStep_buys {side : Side} {fuel : ℕ} {hedgeOb : OrderBook} {hedgeAsk : ℚ}
    {acct acct' : PaperAccount} {fills : List Fill}
    (result : (if 0 < (acct.position (mkt.token side)).costUsd then
        hedgeChunks cfg mkt fuel (mkt.token side) (mkt.token side.other)
          (acct.position (mkt.token side)) (acct.position (mkt.token side.other)) hedgeOb hedgeAsk
          acct
      else some (acct, [])) = some (acct', fills)) :
    BuysThrough cfg mkt (hedgeChunk cfg (mkt.token side) (mkt.token side.other)) acct acct' fills := by
  unfold hedgeChunks at result
  split_ifs at result <;>
    first
      | exact hedgeLoop_buys result
      | (obtain ⟨rfl, rfl⟩ := Prod.mk.inj (Option.some.inj result); exact .done _)

/-- **What a `threshold35` tick is made of:** `choosePrimary`; then, with no primary side,
nothing; with one, its DCA ladder on its own token and book, then the hedge step on the other
side's. -/
theorem stepThreshold35_cases {fuel : ℕ} {eng eng' : UpDownStrategyEngine}
    {upOb downOb : OrderBook} {upAsk downAsk : ℚ} {acct acct' : PaperAccount} {fills : List Fill}
    (result : stepThreshold35 cfg mkt fuel eng upOb downOb upAsk downAsk acct =
      some (eng', acct', fills)) :
    ((choosePrimary cfg eng upAsk downAsk).primary = none ∧
        eng' = choosePrimary cfg eng upAsk downAsk ∧ acct' = acct ∧ fills = []) ∨
      ∃ side, (choosePrimary cfg eng upAsk downAsk).primary = some side ∧
        ∃ acct1 dcaFills hedgeFills,
          dcaIfTrigger cfg mkt (choosePrimary cfg eng upAsk downAsk) side (mkt.token side)
            ((⟨upOb, downOb⟩ : PerSide OrderBook).get side)
            ((⟨upAsk, downAsk⟩ : PerSide ℚ).get side) acct = (eng', acct1, dcaFills) ∧
          (if 0 < (acct1.position (mkt.token side)).costUsd then
            hedgeChunks cfg mkt fuel (mkt.token side) (mkt.token side.other)
              (acct1.position (mkt.token side)) (acct1.position (mkt.token side.other))
              ((⟨upOb, downOb⟩ : PerSide OrderBook).get side.other)
              ((⟨upAsk, downAsk⟩ : PerSide ℚ).get side.other) acct1
          else some (acct1, [])) = some (acct', hedgeFills) ∧
          fills = dcaFills ++ hedgeFills := by
  simp only [stepThreshold35] at result
  generalize choosePrimary cfg eng upAsk downAsk = eng1 at result ⊢
  rcases primary : eng1.primary with _ | side
  · simp only [primary, Option.map_some', Option.some.injEq, Prod.mk.injEq, List.append_nil]
      at result
    obtain ⟨rfl, rfl, rfl⟩ := result
    exact .inl ⟨rfl, rfl, rfl, rfl⟩
  · rcases dca : dcaIfTrigger cfg mkt eng1 side (mkt.token side)
      ((⟨upOb, downOb⟩ : PerSide OrderBook).get side) ((⟨upAsk, downAsk⟩ : PerSide ℚ).get side) acct
      with ⟨eng2, acct1, dcaFills⟩
    have primary2 := (dcaIfTrigger_buys dca).2.1
    rw [primary] at primary2
    refine .inr ⟨side, rfl, acct1, dcaFills, ?_⟩
    cases side <;> simp only [ActiveMarket.token, PerSide.get] at dca <;>
      simp only [primary, dca, primary2] at result <;>
      obtain ⟨⟨acct'', hedgeFills⟩, inner, same⟩ := Option.map_eq_some'.mp result <;>
      obtain ⟨rfl, rfl, rfl⟩ := same <;>
      exact ⟨hedgeFills, dca, inner, rfl⟩

/-- **What a `threshold35` tick does:** it keeps the mode, fixes the primary side by
`choosePrimary`, and, once a primary side is chosen, makes DCA buys of that side's token and
then hedge buys of the other. -/
theorem stepThreshold35_buys {fuel : ℕ} {eng eng' : UpDownStrategyEngine}
    {upOb downOb : OrderBook} {upAsk downAsk : ℚ} {acct acct' : PaperAccount} {fills : List Fill}
    (result : stepThreshold35 cfg mkt fuel eng upOb downOb upAsk downAsk acct =
      some (eng', acct', fills)) :
    eng'.mode = eng.mode ∧ eng'.primary = (choosePrimary cfg eng upAsk downAsk).primary ∧
      (eng'.primary = none → acct' = acct ∧ fills = []) ∧
      ∀ side, eng'.primary = some side → ∃ acct1 dcaFills hedgeFills,
        fills = dcaFills ++ hedgeFills ∧
        BuysThrough cfg mkt (dcaChunk cfg (mkt.token side) side.label) acct acct1 dcaFills ∧
        BuysThrough cfg mkt (hedgeChunk cfg (mkt.token side) (mkt.token side.other)) acct1 acct'
          hedgeFills := by
  have choose_mode : (choosePrimary cfg eng upAsk downAsk).mode = eng.mode :=
    choosePrimary_mode eng upAsk downAsk
  rcases stepThreshold35_cases result with
    ⟨primary, rfl, rfl, rfl⟩ | ⟨side, primary, acct1, dcaFills, hedgeFills, dca, inner, rfl⟩
  · exact ⟨choose_mode, rfl, fun _ => ⟨rfl, rfl⟩, fun _ chosen => by simp [primary] at chosen⟩
  · obtain ⟨mode2, primary2, dcaBuys⟩ := dcaIfTrigger_buys dca
    refine ⟨mode2.trans choose_mode, primary2,
      fun none => by simp [primary2, primary] at none, fun side' chosen => ?_⟩
    obtain rfl : side = side' := Option.some.inj ((primary2.trans primary).symm.trans chosen)
    exact ⟨acct1, dcaFills, hedgeFills, rfl, dcaBuys, hedgeStep_buys inner⟩

theorem spreadCapture_buys {expensiveToken cheapToken expensiveNote cheapNote : String}
    {expensiveOb cheapOb : OrderBook} {expensiveAsk cheapAsk : ℚ} {acct acct' : PaperAccount}
    {fills : List Fill}
    (result : spreadCapture cfg mkt expensiveToken expensiveOb expensiveAsk expensiveNote cheapToken
      cheapOb cheapAsk cheapNote acct = (acct', fills)) :
    BuysThrough cfg mkt (fun _ t _ note => (t = expensiveToken ∧ note = expensiveNote) ∨
      (t = cheapToken ∧ note = cheapNote)) acct acct' fills := by
  rcases first : maybeBuy cfg mkt expensiveToken expensiveOb acct cfg.buyChunkUsd expensiveNote
    with ⟨acct1, expensiveFill⟩
  rcases second : maybeBuy cfg mkt cheapToken cheapOb acct1 cfg.buyChunkUsd cheapNote
    with ⟨acct2, cheapFill⟩
  simp only [spreadCapture, first, second] at result
  split_ifs at result
  · obtain ⟨rfl, rfl⟩ := Prod.mk.inj result
    exact (BuysThrough.single (.inl ⟨rfl, rfl⟩) first).trans (.single (.inr ⟨rfl, rfl⟩) second)
  · obtain ⟨rfl, rfl⟩ := Prod.mk.inj result
    exact .done _

/-- What a `spread73_22` tick does: chunk buys of the market's two tokens under the notes of its
two blocks. -/
theorem stepSpread73_22_buys {upOb downOb : OrderBook} {upAsk downAsk : ℚ}
    {acct acct' : PaperAccount} {fills : List Fill}
    (result : stepSpread73_22 cfg mkt upOb downOb upAsk downAsk acct = (acct', fills)) :
    BuysThrough cfg mkt (spreadChunk mkt) acct acct' fills := by
  rcases first : spreadCapture cfg mkt mkt.upToken upOb upAsk "spread73_22_up_exp" mkt.downToken
    downOb downAsk "spread73_22_down_cheap" acct with ⟨acct1, upExpensive⟩
  rcases second : spreadCapture cfg mkt mkt.downToken downOb downAsk "spread73_22_down_exp"
    mkt.upToken upOb upAsk "spread73_22_up_cheap" acct1 with ⟨acct2, downExpensive⟩
  simp only [stepSpread73_22, first, second] at result
  obtain ⟨rfl, rfl⟩ := Prod.mk.inj result
  refine ((spreadCapture_buys first).mono ?_).trans ((spreadCapture_buys second).mono ?_) <;>
    rintro _ _ _ _ (⟨rfl, rfl⟩ | ⟨rfl, rfl⟩) <;> simp [spreadChunk]

/-- **What a tick is made of:** nothing without a bid and an ask on both books; otherwise the
engine's mode on the two books and their best asks. -/
theorem step_cases {fuel : ℕ} {eng eng' : UpDownStrategyEngine} {store : OrderBookStore}
    {acct acct' : PaperAccount} {fills : List Fill}
    (result : step cfg mkt fuel eng store acct = some (eng', acct', fills)) :
    (eng' = eng ∧ acct' = acct ∧ fills = []) ∨
      ∃ upAsk downAsk, (store.get mkt.upToken).bestAsk = some upAsk ∧
        (store.get mkt.downToken).bestAsk = some downAsk ∧
        ((eng.mode = .threshold35 ∧ stepThreshold35 cfg mkt fuel eng (store.get mkt.upToken)
            (store.get mkt.downToken) upAsk downAsk acct = some (eng', acct', fills)) ∨
          (eng.mode = .spread73_22 ∧ eng' = eng ∧ stepSpread73_22 cfg mkt (store.get mkt.upToken)
            (store.get mkt.downToken) upAsk downAsk acct = (acct', fills))) := by
  simp only [step] at result
  split at result
  · next upAsk downAsk _ _ upBest downBest _ _ =>
    split at result
    · exact .inr ⟨_, _, upBest, downBest, .inl ⟨‹_›, result⟩⟩
    · obtain ⟨rfl, rfl, rfl⟩ := Option.some.inj result
      exact .inr ⟨_, _, upBest, downBest, .inr ⟨‹_›, rfl, rfl⟩⟩
  · obtain ⟨rfl, rfl, rfl⟩ := Option.some.inj result
    exact .inl ⟨rfl, rfl, rfl⟩

/-- **What a tick does, in either mode:** it keeps the mode and changes the account only by
chunk buys of the market's two tokens. -/
theorem step_buys {fuel : ℕ} {eng eng' : UpDownStrategyEngine} {store : OrderBookStore}
    {acct acct' : PaperAccount} {fills : List Fill}
    (result : step cfg mkt fuel eng store acct = some (eng', acct', fills)) :
    eng'.mode = eng.mode ∧
      BuysThrough cfg mkt (fun _ t _ _ => t = mkt.upToken ∨ t = mkt.downToken) acct acct'
        fills := by
  rcases step_cases result with ⟨rfl, rfl, rfl⟩ | ⟨_, _, -, -, ⟨-, ticked⟩ | ⟨-, rfl, ticked⟩⟩
  · exact ⟨rfl, .done _⟩
  · obtain ⟨mode, _, quiet, choice⟩ := stepThreshold35_buys ticked
    refine ⟨mode, ?_⟩
    rcases primary : eng'.primary with _ | side
    · obtain ⟨rfl, rfl⟩ := quiet primary
      exact .done _
    · obtain ⟨acct1, dcaFills, hedgeFills, rfl, dca, hedge⟩ := choice side primary
      have token_mem : ∀ side : Side, mkt.token side = mkt.upToken ∨ mkt.token side = mkt.downToken
        := fun side => by cases side <;> simp [ActiveMarket.token]
      refine (dca.mono ?_).trans (hedge.mono ?_)
      · rintro _ _ _ _ ⟨rfl, -⟩
        exact token_mem side
      · rintro _ _ _ _ ⟨rfl, -⟩
        exact token_mem side.other
  · exact ⟨rfl, (stepSpread73_22_buys ticked).mono fun _ _ _ _ buy => buy.1⟩

end UpDownStrategyEngine

end PaperTrader
