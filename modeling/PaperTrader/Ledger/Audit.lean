/-
**Audit writes that raise, over a whole tick.**

`FileLogger.log_fill` and `log_result` append a row to a CSV file, and either can raise (the file
cannot be opened, the disk is full). The source writes them after the account has changed, with
nothing around them to undo it: the exception leaves the method with the state as it is, unwinds
the rest of the tick or of the settlement, and `main` swallows it. A tick's writer is `writes`,
the outcome of each of its calls of `log_fill` in order (`true` when the call returns), and each
method returns, with its state, the fills it made and whether the write of the last one raised:

* `maybeBuyLogged`, `dcaIfTriggerLogged`, `hedgeLoopLogged`, `hedgeChunksLogged`,
  `stepThreshold35Logged`, `spreadCaptureLogged`, `stepSpread73_22Logged`, `stepLogged`,
  `settleMarketLogged` — the engine's methods and `settle_market` with that writer;
* `stepLogged_const` — a writer that never raises gives the tick the rest of the development
  models;
* `dcaIfTriggerLogged_eq`, `settleMarketLogged_account` — a raising write rolls nothing back: the
  buy or the redemption stays, and only the DCA ladder, which advances after `_maybe_buy`
  returns, stays where it was;
* `hedgeLoopLogged_succ` — one check of the hedge loop's condition with a writer: a raising write
  ends the loop with the chunk bought;
* `stepThreshold35Logged_cases`, `stepLogged_cases` — what a tick with a writer is made of: the
  DCA chunk, then, unless its write raised, the hedge loop on what the rest of the writer gives;
* `stepLogged_buys`, `stepLogged_ladder` — so, whatever the writer, a tick changes the account only
  by chunk buys of the market's tokens (`BuysThrough`), the fill whose write raised included, and
  the ladder by at most one rung (`LadderStep`);
* `writtenFills`, `raisedFills` — the fills whose rows were written, and the one whose write
  raised;
* `audit_failure_keeps_mutations` — at the entry chunk of a fresh engine, from the general
  `dcaIfTriggerLogged_eq` and `settleMarketLogged_account`: a failed `log_fill` leaves the buy in
  the account and the DCA ladder where it was, and a failed `log_result` leaves the redemption in
  cash.
-/

import PaperTrader.Engine.Liveness
import Mathlib.Data.Stream.Init

namespace PaperTrader

/-- The fills of a method whose rows were written: all of them, or all but the last when the last
one's `log_fill` raised. -/
def writtenFills (fills : List Fill) (raised : Bool) : List Fill :=
  if raised then fills.dropLast else fills

/-- The fill whose `log_fill` raised, if one did: the last one made. -/
def raisedFills (fills : List Fill) (raised : Bool) : List Fill :=
  if raised then fills.getLast?.toList else []

@[simp] theorem writtenFills_append_raisedFills (fills : List Fill) (raised : Bool) :
    writtenFills fills raised ++ raisedFills fills raised = fills := by
  cases raised
  · simp [writtenFills, raisedFills]
  · rcases List.eq_nil_or_concat fills with rfl | ⟨rest, last, rfl⟩ <;>
      simp [writtenFills, raisedFills]

theorem writtenFills_subset (fills : List Fill) (raised : Bool) : writtenFills fills raised ⊆ fills := by
  unfold writtenFills
  split
  exacts [List.dropLast_subset _, List.Subset.refl _]

namespace UpDownStrategyEngine

section Logged

variable (cfg : StrategyConfig) (mkt : ActiveMarket)

/-- `_maybe_buy` with a `log_fill` that raises unless `writes`: the account after the buy, the
fill it made, and whether `log_fill` raised on it. The account is changed before the write. -/
def maybeBuyLogged (writes : Bool) (tokenId : String) (ob : OrderBook) (acct : PaperAccount)
    (usd : ℚ) (note : String) : PaperAccount × Option Fill × Bool :=
  let bought := maybeBuy cfg mkt tokenId ob acct usd note
  (bought.1, bought.2, bought.2.isSome && !writes)

/-- `_dca_if_trigger` with that writer: the engine, the account, the fill made and whether its
write raised. The ladder advances after `_maybe_buy` returns, so not when its write raises. -/
def dcaIfTriggerLogged (writes : Bool) (eng : UpDownStrategyEngine) (side : Side)
    (tokenId : String) (ob : OrderBook) (bestAsk : ℚ) (acct : PaperAccount) :
    (UpDownStrategyEngine × PaperAccount × List Fill) × Bool :=
  if cfg.maxSideSpendUsd ≤ (acct.position tokenId).costUsd then ((eng, acct, []), false)
  else
    let threshold := eng.nextDcaThreshold.get side
    if bestAsk ≤ threshold then
      if eng.dcaBuysDone.get side ≤ cfg.dcaLevels then
        match maybeBuyLogged cfg mkt writes tokenId ob acct cfg.buyChunkUsd
            (side.label ++ "_entry_or_dca") with
        | (acct', fill, true) => ((eng, acct', fill.toList), true)
        | (acct', fill, false) =>
          (({ eng with
              dcaBuysDone := eng.dcaBuysDone.set side (eng.dcaBuysDone.get side + 1)
              nextDcaThreshold := eng.nextDcaThreshold.set side
                (clamp (threshold - cfg.dcaStepCents / 100.0) 0.01 0.99) },
            acct', fill.toList), false)
      else ((eng, acct, []), false)
    else ((eng, acct, []), false)

/-- The `while` loop of `_hedge_chunks` with that writer, `writes` the outcomes of the loop's
calls of `log_fill`: the account, the fills made and whether the last one's write raised, which
ends the loop; `none` when `fuel` runs out. -/
def hedgeLoopLogged (primaryToken hedgeToken : String) (hedgeOb : OrderBook) :
    ℕ → Stream' Bool → Position → Position → PaperAccount →
      Option ((PaperAccount × List Fill) × Bool)
  | 0, _, _, _, _ => none
  | fuel + 1, writes, primaryPos, hedgePos, acct =>
    if hedgePos.costUsd + epsilon < primaryPos.costUsd then
      if cfg.maxSideSpendUsd ≤ hedgePos.costUsd then some ((acct, []), false)
      else
        let (estShares, estAvg, estSpent) := consumeAsksForBuy hedgeOb cfg.buyChunkUsd
        if estShares ≤ 0 ∨ estSpent ≤ 0 then some ((acct, []), false)
        else if cfg.sumCapDollars ≤ primaryPos.avgPrice + estAvg then some ((acct, []), false)
        else
          match maybeBuyLogged cfg mkt writes.head hedgeToken hedgeOb acct cfg.buyChunkUsd
              "hedge_chunk_sumcap_ok" with
          | (acct', fill, true) => some ((acct', fill.toList), true)
          | (acct', fill, false) =>
            (hedgeLoopLogged primaryToken hedgeToken hedgeOb fuel (writes.drop fill.toList.length)
                (acct'.position primaryToken) (acct'.position hedgeToken) acct').map
              fun ((acct'', fills), raised) => ((acct'', fill.toList ++ fills), raised)
    else some ((acct, []), false)

/-- `_hedge_chunks` with that writer. -/
def hedgeChunksLogged (fuel : ℕ) (writes : Stream' Bool) (primaryToken hedgeToken : String)
    (primaryPos hedgePos : Position) (hedgeOb : OrderBook) (hedgeAsk : ℚ) (acct : PaperAccount) :
    Option ((PaperAccount × List Fill) × Bool) :=
  if cfg.entryAskCents / 100.0 < hedgeAsk then some ((acct, []), false)
  else hedgeLoopLogged cfg mkt primaryToken hedgeToken hedgeOb fuel writes primaryPos hedgePos acct

/-- `_step_threshold35` with that writer: a raising write in `_dca_if_trigger` ends the method
before the hedge. -/
def stepThreshold35Logged (fuel : ℕ) (writes : Stream' Bool) (eng : UpDownStrategyEngine)
    (upOb downOb : OrderBook) (upAsk downAsk : ℚ) (acct : PaperAccount) :
    Option ((UpDownStrategyEngine × PaperAccount × List Fill) × Bool) :=
  let eng := choosePrimary cfg eng upAsk downAsk
  let ((eng, acct, dcaFills), raised) :=
    match eng.primary with
    | some .up => dcaIfTriggerLogged cfg mkt writes.head eng .up mkt.upToken upOb upAsk acct
    | some .down =>
      dcaIfTriggerLogged cfg mkt writes.head eng .down mkt.downToken downOb downAsk acct
    | none => ((eng, acct, []), false)
  if raised then some ((eng, acct, dcaFills), true)
  else
    let writes := writes.drop dcaFills.length
    let upPos := acct.position mkt.upToken
    let downPos := acct.position mkt.downToken
    let hedged :=
      match eng.primary with
      | some .up =>
        if 0 < upPos.costUsd then
          hedgeChunksLogged cfg mkt fuel writes mkt.upToken mkt.downToken upPos downPos downOb
            downAsk acct
        else some ((acct, []), false)
      | some .down =>
        if 0 < downPos.costUsd then
          hedgeChunksLogged cfg mkt fuel writes mkt.downToken mkt.upToken downPos upPos upOb upAsk
            acct
        else some ((acct, []), false)
      | none => some ((acct, []), false)
    hedged.map fun ((acct, hedgeFills), raised) => ((eng, acct, dcaFills ++ hedgeFills), raised)

/-- A block of `_step_spread73_22` with that writer: a raising write on the expensive side ends it
before the cheap side. -/
def spreadCaptureLogged (writes : Stream' Bool) (expensiveToken : String) (expensiveOb : OrderBook)
    (expensiveAsk : ℚ) (expensiveNote : String) (cheapToken : String) (cheapOb : OrderBook)
    (cheapAsk : ℚ) (cheapNote : String) (acct : PaperAccount) : (PaperAccount × List Fill) × Bool :=
  if cfg.expensiveMin ≤ expensiveAsk ∧ cheapAsk ≤ cfg.cheapMax ∧
      expensiveAsk + cheapAsk < cfg.spreadSumCap then
    match maybeBuyLogged cfg mkt writes.head expensiveToken expensiveOb acct cfg.buyChunkUsd
        expensiveNote with
    | (acct, expensiveFill, true) => ((acct, expensiveFill.toList), true)
    | (acct, expensiveFill, false) =>
      let (acct, cheapFill, raised) := maybeBuyLogged cfg mkt
        (writes.drop expensiveFill.toList.length).head cheapToken cheapOb acct cfg.buyChunkUsd
        cheapNote
      ((acct, expensiveFill.toList ++ cheapFill.toList), raised)
  else ((acct, []), false)

/-- `_step_spread73_22` with that writer. -/
def stepSpread73_22Logged (writes : Stream' Bool) (upOb downOb : OrderBook) (upAsk downAsk : ℚ)
    (acct : PaperAccount) : (PaperAccount × List Fill) × Bool :=
  match spreadCaptureLogged cfg mkt writes mkt.upToken upOb upAsk "spread73_22_up_exp"
      mkt.downToken downOb downAsk "spread73_22_down_cheap" acct with
  | ((acct, upExpensive), true) => ((acct, upExpensive), true)
  | ((acct, upExpensive), false) =>
    let ((acct, downExpensive), raised) := spreadCaptureLogged cfg mkt
      (writes.drop upExpensive.length) mkt.downToken downOb downAsk "spread73_22_down_exp"
      mkt.upToken upOb upAsk "spread73_22_up_cheap" acct
    ((acct, upExpensive ++ downExpensive), raised)

/-- `step(mkt, store, acct, flog)` with a writer that may raise, with `fuel` for the hedge loop:
the engine, the account, the fills made, and whether the last one's write raised, in which case
the exception has left `step`. -/
def stepLogged (fuel : ℕ) (writes : Stream' Bool) (eng : UpDownStrategyEngine)
    (store : OrderBookStore) (acct : PaperAccount) :
    Option ((UpDownStrategyEngine × PaperAccount × List Fill) × Bool) :=
  let upOb := store.get mkt.upToken
  let downOb := store.get mkt.downToken
  match upOb.bestAsk, downOb.bestAsk, upOb.bestBid, downOb.bestBid with
  | some upAsk, some downAsk, some _, some _ =>
    match eng.mode with
    | .threshold35 => stepThreshold35Logged cfg mkt fuel writes eng upOb downOb upAsk downAsk acct
    | .spread73_22 =>
      let ((acct, fills), raised) := stepSpread73_22Logged cfg mkt writes upOb downOb upAsk downAsk
        acct
      some ((eng, acct, fills), raised)
  | _, _, _, _ => some ((eng, acct, []), false)

end Logged

end UpDownStrategyEngine

/-- `settle_market` with a `log_result` that raises unless `writes`: the account and the result
made, and whether `log_result` raised on it. Cash and both positions are set before the write. -/
def settleMarketLogged (cfg : StrategyConfig) (mkt : ActiveMarket) (writes : Bool)
    (startWait : ℚ) (polls : List (ℚ × OrderBookStore)) (final : OrderBookStore)
    (acct : PaperAccount) : (PaperAccount × MarketResult) × Bool :=
  (settleMarket cfg mkt startWait polls final acct, !writes)

/-! ### A raising write rolls nothing back -/

namespace UpDownStrategyEngine

section Rollback

variable {cfg : StrategyConfig} {mkt : ActiveMarket}

@[simp] theorem maybeBuyLogged_account (writes : Bool) (tokenId : String) (ob : OrderBook)
    (acct : PaperAccount) (usd : ℚ) (note : String) :
    (maybeBuyLogged cfg mkt writes tokenId ob acct usd note).1 =
      (maybeBuy cfg mkt tokenId ob acct usd note).1 := rfl

/-- **What `_dca_if_trigger` does with a writer**: what it does without one, except that when the
write of the chunk it bought raises, the engine is left as it was. -/
theorem dcaIfTriggerLogged_eq (writes : Bool) (eng : UpDownStrategyEngine) (side : Side)
    (tokenId : String) (ob : OrderBook) (bestAsk : ℚ) (acct : PaperAccount) :
    dcaIfTriggerLogged cfg mkt writes eng side tokenId ob bestAsk acct =
      if (dcaIfTrigger cfg mkt eng side tokenId ob bestAsk acct).2.2 ≠ [] ∧ writes = false then
        ((eng, (dcaIfTrigger cfg mkt eng side tokenId ob bestAsk acct).2), true)
      else (dcaIfTrigger cfg mkt eng side tokenId ob bestAsk acct, false) := by
  rcases bought : maybeBuy cfg mkt tokenId ob acct cfg.buyChunkUsd (side.label ++ "_entry_or_dca")
    with ⟨acct1, fill⟩
  unfold dcaIfTriggerLogged dcaIfTrigger
  by_cases capped : cfg.maxSideSpendUsd ≤ (acct.position tokenId).costUsd
  · simp [capped]
  by_cases triggered : bestAsk ≤ eng.nextDcaThreshold.get side
  · by_cases room : eng.dcaBuysDone.get side ≤ cfg.dcaLevels
    · cases fill <;> cases writes <;> simp [capped, triggered, room, maybeBuyLogged, bought]
    · simp [capped, triggered, room]
  · simp [capped, triggered]

end Rollback

/-! ### A writer that never raises -/

section Const

variable {cfg : StrategyConfig} {mkt : ActiveMarket}

theorem dcaIfTriggerLogged_writes (eng : UpDownStrategyEngine) (side : Side) (tokenId : String)
    (ob : OrderBook) (bestAsk : ℚ) (acct : PaperAccount) :
    dcaIfTriggerLogged cfg mkt true eng side tokenId ob bestAsk acct =
      (dcaIfTrigger cfg mkt eng side tokenId ob bestAsk acct, false) := by
  simp [dcaIfTriggerLogged_eq]

@[simp] theorem dcaIfTrigger_primary (eng : UpDownStrategyEngine) (side : Side) (tokenId : String)
    (ob : OrderBook) (bestAsk : ℚ) (acct : PaperAccount) :
    (dcaIfTrigger cfg mkt eng side tokenId ob bestAsk acct).1.primary = eng.primary :=
  (dcaIfTrigger_buys rfl).2.1

theorem hedgeLoopLogged_const {primaryToken hedgeToken : String} {hedgeOb : OrderBook} :
    ∀ (fuel : ℕ) (primaryPos hedgePos : Position) (acct : PaperAccount),
      hedgeLoopLogged cfg mkt primaryToken hedgeToken hedgeOb fuel (Stream'.const true) primaryPos
          hedgePos acct =
        (hedgeLoop cfg mkt primaryToken hedgeToken hedgeOb fuel primaryPos hedgePos acct).map
          (·, false)
  | 0, _, _, _ => rfl
  | fuel + 1, primaryPos, hedgePos, acct => by
    rcases bought : maybeBuy cfg mkt hedgeToken hedgeOb acct cfg.buyChunkUsd
      "hedge_chunk_sumcap_ok" with ⟨acct1, fill⟩
    simp only [hedgeLoopLogged, hedgeLoop, maybeBuyLogged, bought, Stream'.drop_const,
      hedgeLoopLogged_const fuel, Option.map_map, Stream'.head, Stream'.get_const, Bool.not_true,
      Bool.and_false, apply_ite (Option.map (·, false)), Option.map_some']
    rfl

theorem hedgeChunksLogged_const (fuel : ℕ) (primaryToken hedgeToken : String)
    (primaryPos hedgePos : Position) (hedgeOb : OrderBook) (hedgeAsk : ℚ) (acct : PaperAccount) :
    hedgeChunksLogged cfg mkt fuel (Stream'.const true) primaryToken hedgeToken primaryPos hedgePos
        hedgeOb hedgeAsk acct =
      (hedgeChunks cfg mkt fuel primaryToken hedgeToken primaryPos hedgePos hedgeOb hedgeAsk
        acct).map (·, false) := by
  unfold hedgeChunksLogged hedgeChunks
  split_ifs
  · rfl
  · exact hedgeLoopLogged_const fuel primaryPos hedgePos acct

theorem stepThreshold35Logged_const (fuel : ℕ) (eng : UpDownStrategyEngine) (upOb downOb : OrderBook)
    (upAsk downAsk : ℚ) (acct : PaperAccount) :
    stepThreshold35Logged cfg mkt fuel (Stream'.const true) eng upOb downOb upAsk downAsk acct =
      (stepThreshold35 cfg mkt fuel eng upOb downOb upAsk downAsk acct).map (·, false) := by
  simp only [stepThreshold35Logged, stepThreshold35, Stream'.head, Stream'.get_const,
    dcaIfTriggerLogged_writes, Stream'.drop_const, hedgeChunksLogged_const]
  generalize choosePrimary cfg eng upAsk downAsk = eng1
  rcases eng1 with ⟨mode, _ | _ | _, done, threshold⟩ <;>
    simp only [dcaIfTrigger_primary, Bool.false_eq_true, ↓reduceIte]
  · rfl
  all_goals simp only [apply_ite (Option.map _), Option.map_map, Option.map_some']; rfl

theorem spreadCaptureLogged_const (expensiveToken : String) (expensiveOb : OrderBook)
    (expensiveAsk : ℚ) (expensiveNote : String) (cheapToken : String) (cheapOb : OrderBook)
    (cheapAsk : ℚ) (cheapNote : String) (acct : PaperAccount) :
    spreadCaptureLogged cfg mkt (Stream'.const true) expensiveToken expensiveOb expensiveAsk
        expensiveNote cheapToken cheapOb cheapAsk cheapNote acct =
      (spreadCapture cfg mkt expensiveToken expensiveOb expensiveAsk expensiveNote cheapToken cheapOb
        cheapAsk cheapNote acct, false) := by
  simp only [spreadCaptureLogged, spreadCapture, maybeBuyLogged, Stream'.drop_const, Stream'.head,
    Stream'.get_const, Bool.not_true, Bool.and_false]
  split_ifs <;> rfl

theorem stepLogged_const (fuel : ℕ) (eng : UpDownStrategyEngine) (store : OrderBookStore)
    (acct : PaperAccount) :
    stepLogged cfg mkt fuel (Stream'.const true) eng store acct =
      (step cfg mkt fuel eng store acct).map (·, false) := by
  simp only [stepLogged, step]
  rcases (store.get mkt.upToken).bestAsk with _ | upAsk <;>
    rcases (store.get mkt.downToken).bestAsk with _ | downAsk <;>
    rcases (store.get mkt.upToken).bestBid with _ | _ <;>
    rcases (store.get mkt.downToken).bestBid with _ | _ <;> try rfl
  cases eng.mode
  · exact stepThreshold35Logged_const fuel eng _ _ _ _ acct
  · simp only [stepSpread73_22Logged, stepSpread73_22, spreadCaptureLogged_const, Stream'.drop_const]
    rfl

end Const

/-! ### What a tick does, whatever the writer -/

section Buys

variable {cfg : StrategyConfig} {mkt : ActiveMarket}

theorem maybeBuy_of_logged {writes : Bool} {tokenId : String} {ob : OrderBook}
    {acct acct' : PaperAccount} {usd : ℚ} {note : String} {fill : Option Fill} {raised : Bool}
    (logged : maybeBuyLogged cfg mkt writes tokenId ob acct usd note = (acct', fill, raised)) :
    maybeBuy cfg mkt tokenId ob acct usd note = (acct', fill) := by
  simp only [maybeBuyLogged, Prod.mk.injEq] at logged
  exact Prod.ext logged.1 logged.2.1

/-- The loop goes on only with a chunk the hedge may buy. -/
theorem hedgeChunk_of_not_stopped {primaryToken hedgeToken : String} {hedgeOb : OrderBook}
    {acct : PaperAccount} (going : ¬HedgeStopped cfg primaryToken hedgeToken hedgeOb acct) :
    hedgeChunk cfg primaryToken hedgeToken acct hedgeToken hedgeOb "hedge_chunk_sumcap_ok" := by
  simp only [HedgeStopped, not_or, not_le] at going
  exact ⟨rfl, rfl, going.2.1, going.1, going.2.2.2.2⟩

/-- **One check of the hedge loop's condition with a writer**: it stops with the account it has
when `HedgeStopped` holds there; otherwise it buys a chunk and, unless that chunk's write raised,
checks again on the rest of the writer. -/
theorem hedgeLoopLogged_succ {primaryToken hedgeToken : String} {hedgeOb : OrderBook} (fuel : ℕ)
    {writes : Stream' Bool} {acct acct1 : PaperAccount} {fill : Option Fill} {raised : Bool}
    (bought : maybeBuyLogged cfg mkt writes.head hedgeToken hedgeOb acct cfg.buyChunkUsd
      "hedge_chunk_sumcap_ok" = (acct1, fill, raised)) :
    hedgeLoopLogged cfg mkt primaryToken hedgeToken hedgeOb (fuel + 1) writes
        (acct.position primaryToken) (acct.position hedgeToken) acct =
      if HedgeStopped cfg primaryToken hedgeToken hedgeOb acct then some ((acct, []), false)
      else if raised then some ((acct1, fill.toList), true)
      else (hedgeLoopLogged cfg mkt primaryToken hedgeToken hedgeOb fuel
          (writes.drop fill.toList.length) (acct1.position primaryToken)
          (acct1.position hedgeToken) acct1).map
        fun ((acct', fills), raised) => ((acct', fill.toList ++ fills), raised) := by
  rcases estimate : consumeAsksForBuy hedgeOb cfg.buyChunkUsd with ⟨estShares, estAvg, estSpent⟩
  by_cases behind : (acct.position hedgeToken).costUsd + epsilon < (acct.position primaryToken).costUsd
  · cases raised <;>
      simp only [hedgeLoopLogged, HedgeStopped, estimate, bought, if_pos behind, not_le.mpr behind,
        false_or, ite_or, Bool.false_eq_true, if_true, if_false]
  · simp only [hedgeLoopLogged, HedgeStopped, if_neg behind, not_lt.mp behind, true_or, if_true]

theorem hedgeLoopLogged_buys {primaryToken hedgeToken : String} {hedgeOb : OrderBook} :
    ∀ {fuel : ℕ} {writes : Stream' Bool} {acct acct' : PaperAccount} {fills : List Fill}
      {raised : Bool},
      hedgeLoopLogged cfg mkt primaryToken hedgeToken hedgeOb fuel writes
          (acct.position primaryToken) (acct.position hedgeToken) acct = some ((acct', fills), raised) →
      BuysThrough cfg mkt (hedgeChunk cfg primaryToken hedgeToken) acct acct' fills
  | 0, _, _, _, _, _, result => by simp [hedgeLoopLogged] at result
  | fuel + 1, writes, acct, _, _, _, result => by
    rcases bought : maybeBuyLogged cfg mkt writes.head hedgeToken hedgeOb acct cfg.buyChunkUsd
      "hedge_chunk_sumcap_ok" with ⟨acct1, fill, raised⟩
    rw [hedgeLoopLogged_succ fuel bought] at result
    split_ifs at result with stopped failed
    · obtain ⟨⟨rfl, rfl⟩, -⟩ := Prod.mk.inj (Option.some.inj result)
      exact .done _
    · obtain ⟨⟨rfl, rfl⟩, -⟩ := Prod.mk.inj (Option.some.inj result)
      exact .single (hedgeChunk_of_not_stopped stopped) (maybeBuy_of_logged bought)
    · obtain ⟨⟨⟨acct2, rest⟩, _⟩, inner, same⟩ := Option.map_eq_some'.mp result
      obtain ⟨⟨rfl, rfl⟩, -⟩ := Prod.mk.inj same
      exact .buy hedgeToken hedgeOb _ fill (hedgeChunk_of_not_stopped stopped)
        (maybeBuy_of_logged bought) (hedgeLoopLogged_buys inner)

/-- The hedge part of `_step_threshold35` with a writer, for the primary `side`. -/
theorem hedgeStepLogged_buys {side : Side} {fuel : ℕ} {writes : Stream' Bool} {hedgeOb : OrderBook}
    {hedgeAsk : ℚ} {acct acct' : PaperAccount} {fills : List Fill} {raised : Bool}
    (result : (if 0 < (acct.position (mkt.token side)).costUsd then
        hedgeChunksLogged cfg mkt fuel writes (mkt.token side) (mkt.token side.other)
          (acct.position (mkt.token side)) (acct.position (mkt.token side.other)) hedgeOb hedgeAsk
          acct
      else some ((acct, []), false)) = some ((acct', fills), raised)) :
    BuysThrough cfg mkt (hedgeChunk cfg (mkt.token side) (mkt.token side.other)) acct acct' fills := by
  unfold hedgeChunksLogged at result
  split_ifs at result
  · simp only [Option.some.injEq, Prod.mk.injEq] at result
    obtain ⟨⟨rfl, rfl⟩, -⟩ := result
    exact .done _
  · exact hedgeLoopLogged_buys result
  · simp only [Option.some.injEq, Prod.mk.injEq] at result
    obtain ⟨⟨rfl, rfl⟩, -⟩ := result
    exact .done _

/-- **What a `threshold35` tick with a writer is made of:** `choosePrimary`; then, with no primary
side, nothing; with one, its DCA ladder, and either the write of the DCA chunk raises, leaving
the engine before the ladder moved and no hedge, or the hedge step on the other side follows. -/
theorem stepThreshold35Logged_cases {fuel : ℕ} {writes : Stream' Bool}
    {eng eng' : UpDownStrategyEngine} {upOb downOb : OrderBook} {upAsk downAsk : ℚ}
    {acct acct' : PaperAccount} {fills : List Fill} {raised : Bool}
    (result : stepThreshold35Logged cfg mkt fuel writes eng upOb downOb upAsk downAsk acct =
      some ((eng', acct', fills), raised)) :
    ((choosePrimary cfg eng upAsk downAsk).primary = none ∧
        eng' = choosePrimary cfg eng upAsk downAsk ∧ acct' = acct ∧ fills = [] ∧ raised = false) ∨
      ∃ side, (choosePrimary cfg eng upAsk downAsk).primary = some side ∧
        ∃ eng1 acct1 dcaFills,
          dcaIfTrigger cfg mkt (choosePrimary cfg eng upAsk downAsk) side (mkt.token side)
            ((⟨upOb, downOb⟩ : PerSide OrderBook).get side)
            ((⟨upAsk, downAsk⟩ : PerSide ℚ).get side) acct = (eng1, acct1, dcaFills) ∧
          ((eng' = choosePrimary cfg eng upAsk downAsk ∧ acct' = acct1 ∧ fills = dcaFills ∧
              raised = true) ∨
            (eng' = eng1 ∧ ∃ hedgeFills,
              (if 0 < (acct1.position (mkt.token side)).costUsd then
                hedgeChunksLogged cfg mkt fuel (writes.drop dcaFills.length) (mkt.token side)
                  (mkt.token side.other) (acct1.position (mkt.token side))
                  (acct1.position (mkt.token side.other))
                  ((⟨upOb, downOb⟩ : PerSide OrderBook).get side.other)
                  ((⟨upAsk, downAsk⟩ : PerSide ℚ).get side.other) acct1
              else some ((acct1, []), false)) = some ((acct', hedgeFills), raised) ∧
              fills = dcaFills ++ hedgeFills)) := by
  simp only [stepThreshold35Logged] at result
  generalize choosePrimary cfg eng upAsk downAsk = eng1 at result ⊢
  rcases primary : eng1.primary with _ | side
  · simp only [primary, Bool.false_eq_true, ↓reduceIte, Option.map_some', Option.some.injEq,
      Prod.mk.injEq, List.append_nil] at result
    obtain ⟨⟨rfl, rfl, rfl⟩, rfl⟩ := result
    exact .inl ⟨rfl, rfl, rfl, rfl, rfl⟩
  rcases dca : dcaIfTrigger cfg mkt eng1 side (mkt.token side)
    ((⟨upOb, downOb⟩ : PerSide OrderBook).get side) ((⟨upAsk, downAsk⟩ : PerSide ℚ).get side) acct
    with ⟨eng2, acct1, dcaFills⟩
  have primary2 : eng2.primary = some side := (dcaIfTrigger_buys dca).2.1.trans primary
  have logged := @dcaIfTriggerLogged_eq cfg mkt writes.head eng1 side
    (mkt.token side) ((⟨upOb, downOb⟩ : PerSide OrderBook).get side)
    ((⟨upAsk, downAsk⟩ : PerSide ℚ).get side) acct
  simp only [dca] at logged
  refine .inr ⟨side, rfl, eng2, acct1, dcaFills, dca, ?_⟩
  split_ifs at logged
  · cases side <;> simp only [ActiveMarket.token, PerSide.get] at logged <;>
      simp only [primary, logged, ↓reduceIte, Option.some.injEq, Prod.mk.injEq] at result <;>
      obtain ⟨⟨rfl, rfl, rfl⟩, rfl⟩ := result <;>
      exact .inl ⟨rfl, rfl, rfl, rfl⟩
  · cases side <;> simp only [ActiveMarket.token, PerSide.get] at logged <;>
      simp only [primary, logged, primary2, Bool.false_eq_true, ↓reduceIte] at result <;>
      obtain ⟨⟨⟨acct'', hedgeFills⟩, _⟩, inner, same⟩ := Option.map_eq_some'.mp result <;>
      simp only [Prod.mk.injEq] at same <;>
      obtain ⟨⟨rfl, rfl, rfl⟩, rfl⟩ := same <;>
      exact .inr ⟨rfl, hedgeFills, inner, rfl⟩

theorem spreadCaptureLogged_buys {writes : Stream' Bool}
    {expensiveToken cheapToken expensiveNote cheapNote : String} {expensiveOb cheapOb : OrderBook}
    {expensiveAsk cheapAsk : ℚ} {acct acct' : PaperAccount} {fills : List Fill} {raised : Bool}
    (result : spreadCaptureLogged cfg mkt writes expensiveToken expensiveOb expensiveAsk
      expensiveNote cheapToken cheapOb cheapAsk cheapNote acct = ((acct', fills), raised)) :
    BuysThrough cfg mkt (fun _ t _ note => (t = expensiveToken ∧ note = expensiveNote) ∨
      (t = cheapToken ∧ note = cheapNote)) acct acct' fills := by
  rcases first : maybeBuyLogged cfg mkt writes.head expensiveToken expensiveOb acct cfg.buyChunkUsd
    expensiveNote with ⟨acct1, expensiveFill, _ | _⟩
  all_goals
    have expensive : BuysThrough cfg mkt (fun _ t _ note =>
        (t = expensiveToken ∧ note = expensiveNote) ∨ (t = cheapToken ∧ note = cheapNote))
        acct acct1 expensiveFill.toList :=
      .single (.inl ⟨rfl, rfl⟩) (maybeBuy_of_logged first)
    simp only [spreadCaptureLogged, first] at result
    split_ifs at result
  · rcases second : maybeBuyLogged cfg mkt (writes.drop expensiveFill.toList.length).head
      cheapToken cheapOb acct1 cfg.buyChunkUsd cheapNote with ⟨acct2, cheapFill, _⟩
    simp only [second, Prod.mk.injEq] at result
    obtain ⟨⟨rfl, rfl⟩, -⟩ := result
    exact expensive.trans (.single (.inr ⟨rfl, rfl⟩) (maybeBuy_of_logged second))
  all_goals
    simp only [Prod.mk.injEq] at result
    obtain ⟨⟨rfl, rfl⟩, -⟩ := result
  exacts [.done _, expensive, .done _]

/-- What a `spread73_22` tick with a writer does: chunk buys of the market's two tokens under the
notes of its two blocks. -/
theorem stepSpread73_22Logged_buys {writes : Stream' Bool} {upOb downOb : OrderBook}
    {upAsk downAsk : ℚ} {acct acct' : PaperAccount} {fills : List Fill} {raised : Bool}
    (result : stepSpread73_22Logged cfg mkt writes upOb downOb upAsk downAsk acct =
      ((acct', fills), raised)) :
    BuysThrough cfg mkt (spreadChunk mkt) acct acct' fills := by
  have notes : ∀ {t note : String} {t' t'' note' note'' : String},
      note' ∈ ["spread73_22_up_exp", "spread73_22_down_cheap", "spread73_22_down_exp",
        "spread73_22_up_cheap"] → note'' ∈ ["spread73_22_up_exp", "spread73_22_down_cheap",
        "spread73_22_down_exp", "spread73_22_up_cheap"] →
      (t' = mkt.upToken ∨ t' = mkt.downToken) → (t'' = mkt.upToken ∨ t'' = mkt.downToken) →
      (t = t' ∧ note = note') ∨ (t = t'' ∧ note = note'') → spreadChunk mkt acct t upOb note := by
    rintro _ _ _ _ _ _ mem' mem'' tok' tok'' (⟨rfl, rfl⟩ | ⟨rfl, rfl⟩)
    exacts [⟨tok', mem'⟩, ⟨tok'', mem''⟩]
  rcases first : spreadCaptureLogged cfg mkt writes mkt.upToken upOb upAsk "spread73_22_up_exp"
    mkt.downToken downOb downAsk "spread73_22_down_cheap" acct with ⟨⟨acct1, upExpensive⟩, _ | _⟩
  · rcases second : spreadCaptureLogged cfg mkt (writes.drop upExpensive.length) mkt.downToken
      downOb downAsk "spread73_22_down_exp" mkt.upToken upOb upAsk "spread73_22_up_cheap" acct1
      with ⟨⟨acct2, downExpensive⟩, _⟩
    simp only [stepSpread73_22Logged, first, second, Prod.mk.injEq] at result
    obtain ⟨⟨rfl, rfl⟩, -⟩ := result
    refine ((spreadCaptureLogged_buys first).mono ?_).trans ((spreadCaptureLogged_buys second).mono ?_)
    all_goals
      rintro _ _ _ _ (⟨rfl, rfl⟩ | ⟨rfl, rfl⟩) <;> simp [spreadChunk]
  · simp only [stepSpread73_22Logged, first, Prod.mk.injEq] at result
    obtain ⟨⟨rfl, rfl⟩, -⟩ := result
    refine (spreadCaptureLogged_buys first).mono ?_
    rintro _ _ _ _ (⟨rfl, rfl⟩ | ⟨rfl, rfl⟩) <;> simp [spreadChunk]

/-- **What a tick with a writer is made of:** nothing without a bid and an ask on both books;
otherwise the engine's mode on the two books and their best asks. -/
theorem stepLogged_cases {fuel : ℕ} {writes : Stream' Bool} {eng eng' : UpDownStrategyEngine}
    {store : OrderBookStore} {acct acct' : PaperAccount} {fills : List Fill} {raised : Bool}
    (result : stepLogged cfg mkt fuel writes eng store acct = some ((eng', acct', fills), raised)) :
    (eng' = eng ∧ acct' = acct ∧ fills = [] ∧ raised = false) ∨
      ∃ upAsk downAsk, (store.get mkt.upToken).bestAsk = some upAsk ∧
        (store.get mkt.downToken).bestAsk = some downAsk ∧
        ((eng.mode = .threshold35 ∧ stepThreshold35Logged cfg mkt fuel writes eng
            (store.get mkt.upToken) (store.get mkt.downToken) upAsk downAsk acct =
              some ((eng', acct', fills), raised)) ∨
          (eng.mode = .spread73_22 ∧ eng' = eng ∧ stepSpread73_22Logged cfg mkt writes
            (store.get mkt.upToken) (store.get mkt.downToken) upAsk downAsk acct =
              ((acct', fills), raised))) := by
  simp only [stepLogged] at result
  split at result
  · next upAsk downAsk _ _ upBest downBest _ _ =>
    split at result
    · exact .inr ⟨_, _, upBest, downBest, .inl ⟨‹_›, result⟩⟩
    · simp only [Option.some.injEq, Prod.mk.injEq] at result
      obtain ⟨⟨rfl, rfl, rfl⟩, rfl⟩ := result
      exact .inr ⟨_, _, upBest, downBest, .inr ⟨‹_›, rfl, rfl⟩⟩
  · simp only [Option.some.injEq, Prod.mk.injEq] at result
    obtain ⟨⟨rfl, rfl, rfl⟩, rfl⟩ := result
    exact .inl ⟨rfl, rfl, rfl, rfl⟩

/-- **What a tick does, whatever the writer:** it keeps the mode and changes the account only by
chunk buys of the market's two tokens, the fills it made being all of them, whether their rows
were written or not. -/
theorem stepLogged_buys {fuel : ℕ} {writes : Stream' Bool} {eng eng' : UpDownStrategyEngine}
    {store : OrderBookStore} {acct acct' : PaperAccount} {fills : List Fill} {raised : Bool}
    (result : stepLogged cfg mkt fuel writes eng store acct = some ((eng', acct', fills), raised)) :
    eng'.mode = eng.mode ∧
      BuysThrough cfg mkt (fun _ t _ _ => t = mkt.upToken ∨ t = mkt.downToken) acct acct'
        fills := by
  have token_mem : ∀ side : Side, mkt.token side = mkt.upToken ∨ mkt.token side = mkt.downToken :=
    fun side => by cases side <;> simp [ActiveMarket.token]
  rcases stepLogged_cases result with ⟨rfl, rfl, rfl, -⟩ |
    ⟨upAsk, downAsk, -, -, ⟨-, ticked⟩ | ⟨-, rfl, ticked⟩⟩
  · exact ⟨rfl, .done _⟩
  · have choose_mode := @choosePrimary_mode cfg eng upAsk downAsk
    rcases stepThreshold35Logged_cases ticked with ⟨-, rfl, rfl, rfl, -⟩ |
      ⟨side, -, eng1, acct1, dcaFills, dca, ⟨rfl, rfl, rfl, -⟩ | ⟨rfl, hedgeFills, hedged, rfl⟩⟩
    · exact ⟨choose_mode, .done _⟩
    all_goals
      obtain ⟨mode1, -, dcaBuys⟩ := dcaIfTrigger_buys dca
      have dcaTokens := dcaBuys.mono fun _ _ _ _ permit => permit.1 ▸ token_mem side
    · exact ⟨choose_mode, dcaTokens⟩
    · refine ⟨mode1.trans choose_mode, dcaTokens.trans ((hedgeStepLogged_buys hedged).mono ?_)⟩
      rintro _ _ _ _ ⟨rfl, -⟩
      exact token_mem side.other
  · exact ⟨rfl, (stepSpread73_22Logged_buys ticked).mono fun _ _ _ _ buy => buy.1⟩

/-- **What a tick does to the ladder, whatever the writer:** nothing, or one rung of one side
(`LadderStep`); a raising write of the DCA chunk leaves it where it was. -/
theorem stepLogged_ladder {fuel : ℕ} {writes : Stream' Bool} {eng eng' : UpDownStrategyEngine}
    {store : OrderBookStore} {acct acct' : PaperAccount} {fills : List Fill} {raised : Bool}
    (result : stepLogged cfg mkt fuel writes eng store acct = some ((eng', acct', fills), raised)) :
    LadderStep cfg eng eng' := by
  rcases stepLogged_cases result with ⟨rfl, -⟩ | ⟨_, _, -, -, ⟨-, ticked⟩ | ⟨-, rfl, -⟩⟩
  · exact .inl ⟨rfl, rfl⟩
  · rcases stepThreshold35Logged_cases ticked with ⟨-, rfl, -⟩ |
      ⟨side, -, eng1, acct1, dcaFills, dca, ⟨rfl, -⟩ | ⟨rfl, -⟩⟩
    · exact .inl ⟨by simp, by simp⟩
    · exact .inl ⟨by simp, by simp⟩
    · rcases dcaIfTrigger_ladder dca with ⟨rfl, -⟩ | ⟨room, rfl, -⟩
      · exact .inl ⟨by simp, by simp⟩
      · exact .inr ⟨side, by simpa using room, by simp, by simp⟩
  · exact .inl ⟨rfl, rfl⟩

end Buys

end UpDownStrategyEngine

/-- **A raising `log_result` rolls nothing back**: cash and positions are the settled ones. -/
@[simp] theorem settleMarketLogged_account (cfg : StrategyConfig) (mkt : ActiveMarket)
    (writes : Bool) (startWait : ℚ) (polls : List (ℚ × OrderBookStore)) (final : OrderBookStore)
    (acct : PaperAccount) :
    (settleMarketLogged cfg mkt writes startWait polls final acct).1 =
      settleMarket cfg mkt startWait polls final acct := rfl

/-- **A failed audit write keeps the mutation it was to record.** With `log_fill` raising, the
entry chunk of `UP` still moves a dollar out of cash while the DCA ladder stays where it was;
with `log_result` raising, settlement still redeems the ten `UP` shares into cash and zeroes the
position. -/
theorem audit_failure_keeps_mutations :
    let ob : OrderBook := (bookPair [(0.30, 100)] [(0.30, 100)]).get sampleMarket.upToken
    let eng := UpDownStrategyEngine.new StrategyConfig.default .threshold35
    let dca := UpDownStrategyEngine.dcaIfTriggerLogged StrategyConfig.default sampleMarket false eng
      .up sampleMarket.upToken ob 0.30 (freshAccount 100)
    let held := (freshAccount 100).credit sampleMarket.upToken 10 3
    let settled := settleMarketLogged StrategyConfig.default sampleMarket false 0 []
      (bookPair [(0.30, 100)] [(0.30, 100)]) held
    dca.2 = true ∧ dca.1.2.1.cash = 99 ∧ (dca.1.2.1.position sampleMarket.upToken).costUsd = 1 ∧
      dca.1.1 = eng ∧
      settled.2 = true ∧ settled.1.1.cash = held.cash + 10 ∧
      settled.1.1.position sampleMarket.upToken = ⟨0, 0⟩ := by
  intro ob eng dca held settled
  have bought : (UpDownStrategyEngine.dcaIfTrigger StrategyConfig.default sampleMarket eng .up
      sampleMarket.upToken ob 0.30 (freshAccount 100)).2.2 ≠ [] := by
    with_unfolding_all decide
  have raised : dca = ((eng, (UpDownStrategyEngine.dcaIfTrigger StrategyConfig.default sampleMarket
      eng .up sampleMarket.upToken ob 0.30 (freshAccount 100)).2), true) := by
    simp only [dca]
    rw [UpDownStrategyEngine.dcaIfTriggerLogged_eq, if_pos ⟨bought, rfl⟩]
  obtain ⟨upShares, -, -, -, -, -, cash, upZero, -⟩ :=
    settleMarket_spec StrategyConfig.default sampleMarket 0 [] (bookPair [(0.30, 100)] [(0.30, 100)])
      held
  refine ⟨by rw [raised], by rw [raised]; with_unfolding_all decide,
    by rw [raised]; with_unfolding_all decide, by rw [raised], rfl, ?_, upZero⟩
  rw [settleMarketLogged_account, cash]
  with_unfolding_all decide

end PaperTrader
