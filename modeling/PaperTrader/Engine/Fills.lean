/-
**What the fills of one tick add up to.**

The sums a tick's fills are judged by: the shares they credit to a token (`sharesTo`), the dollars
they spend (`spentOn`), and the visible depth of an ask ladder (`depth`, the size of its levels
with a positive price and size).

* `hedge_fills_exceed_depth` — the hedge loop re-simulates every chunk on the same book, so one
  `threshold35` tick credits the hedge token with twice the depth of its book;
* `spreadCapture_cases`, `step_spread_block` — with `cheap_max` below `expensive_min`, a
  `spread73_22` tick is one of its two blocks: a chunk of the expensive side, then one of the
  cheap side, at asks on either side of the band whose sum is below `spread_sum_cap`;
* `step_spread_one_block` — so it buys under that block's notes only;
* `step_spread_expensive_payout` — and it buys dollars, not shares: at most `buy_chunk_usd` of the
  expensive side, at no less than its best ask a share, so the expensive side's shares redeem at
  most `buy_chunk_usd / expensive_min`, whatever the cheap side cost;
* `spread_capture_loses_if_up_wins` — so a tick's fills pay out less than they cost if the
  expensive side wins.
-/

import PaperTrader.Engine.MarketRun

namespace PaperTrader

open UpDownStrategyEngine

/-- The shares `fills` credit to `tokenId`. -/
def sharesTo (tokenId : String) (fills : List Fill) : ℚ :=
  ((fills.filter fun f => f.tokenId == tokenId).map Fill.shares).sum

/-- The dollars `fills` spend. -/
def spentOn (fills : List Fill) : ℚ := (fills.map Fill.usd).sum

/-- The token and the note of a fill. -/
def Fill.tag (f : Fill) : String × String := (f.tokenId, f.note)

section Spread

variable {cfg : StrategyConfig} {mkt : ActiveMarket}

theorem maybeBuy_tags {tokenId : String} {ob : OrderBook} {acct acct' : PaperAccount} {usd : ℚ}
    {note : String} {fill : Option Fill}
    (result : maybeBuy cfg mkt tokenId ob acct usd note = (acct', fill)) :
    (fill.toList.map Fill.tag).Sublist [(tokenId, note)] := by
  rcases maybeBuy_cases result with ⟨-, rfl⟩ | ⟨-, -, -, -, -, rfl⟩ <;> simp [Fill.tag]

/-- A block whose three conditions fail buys nothing. -/
theorem spreadCapture_of_not {expensiveToken cheapToken expensiveNote cheapNote : String}
    {expensiveOb cheapOb : OrderBook} {expensiveAsk cheapAsk : ℚ} (acct : PaperAccount)
    (quiet : ¬(cfg.expensiveMin ≤ expensiveAsk ∧ cheapAsk ≤ cfg.cheapMax ∧
      expensiveAsk + cheapAsk < cfg.spreadSumCap)) :
    spreadCapture cfg mkt expensiveToken expensiveOb expensiveAsk expensiveNote cheapToken cheapOb
      cheapAsk cheapNote acct = (acct, []) := by
  simp only [spreadCapture, if_neg quiet]

/-- **What a block of `_step_spread73_22` does:** nothing, or, when its three conditions hold, a
chunk of its expensive token, then one of its cheap token. -/
theorem spreadCapture_cases {expensiveToken cheapToken expensiveNote cheapNote : String}
    {expensiveOb cheapOb : OrderBook} {expensiveAsk cheapAsk : ℚ} {acct acct' : PaperAccount}
    {fills : List Fill}
    (result : spreadCapture cfg mkt expensiveToken expensiveOb expensiveAsk expensiveNote cheapToken
      cheapOb cheapAsk cheapNote acct = (acct', fills)) :
    (acct' = acct ∧ fills = []) ∨
      (cfg.expensiveMin ≤ expensiveAsk ∧ cheapAsk ≤ cfg.cheapMax ∧
        expensiveAsk + cheapAsk < cfg.spreadSumCap ∧
        ∃ acct1 expensiveFill cheapFill,
          maybeBuy cfg mkt expensiveToken expensiveOb acct cfg.buyChunkUsd expensiveNote =
            (acct1, expensiveFill) ∧
          maybeBuy cfg mkt cheapToken cheapOb acct1 cfg.buyChunkUsd cheapNote = (acct', cheapFill) ∧
          fills = expensiveFill.toList ++ cheapFill.toList) := by
  by_cases fires : cfg.expensiveMin ≤ expensiveAsk ∧ cheapAsk ≤ cfg.cheapMax ∧
      expensiveAsk + cheapAsk < cfg.spreadSumCap
  · rcases first : maybeBuy cfg mkt expensiveToken expensiveOb acct cfg.buyChunkUsd expensiveNote
      with ⟨acct1, expensiveFill⟩
    rcases second : maybeBuy cfg mkt cheapToken cheapOb acct1 cfg.buyChunkUsd cheapNote
      with ⟨acct2, cheapFill⟩
    simp only [spreadCapture, if_pos fires, first, second, Prod.mk.injEq] at result
    obtain ⟨rfl, rfl⟩ := result
    exact .inr ⟨fires.1, fires.2.1, fires.2.2, acct1, expensiveFill, cheapFill, rfl, second, rfl⟩
  · rw [spreadCapture_of_not acct fires, Prod.mk.injEq] at result
    exact .inl ⟨result.1.symm, result.2.symm⟩

/-- A block of `_step_spread73_22` fills nothing unless its three conditions hold, and then at most
a chunk of its expensive token and one of its cheap token, in that order. -/
theorem spreadCapture_fires {expensiveToken cheapToken expensiveNote cheapNote : String}
    {expensiveOb cheapOb : OrderBook} {expensiveAsk cheapAsk : ℚ} {acct acct' : PaperAccount}
    {fills : List Fill}
    (result : spreadCapture cfg mkt expensiveToken expensiveOb expensiveAsk expensiveNote cheapToken
      cheapOb cheapAsk cheapNote acct = (acct', fills)) :
    (fills = [] ∨ cfg.expensiveMin ≤ expensiveAsk ∧ cheapAsk ≤ cfg.cheapMax ∧
        expensiveAsk + cheapAsk < cfg.spreadSumCap) ∧
      (fills.map Fill.tag).Sublist [(expensiveToken, expensiveNote), (cheapToken, cheapNote)] := by
  rcases spreadCapture_cases result with ⟨-, rfl⟩ |
    ⟨high, low, sum, _, _, _, first, second, rfl⟩
  · exact ⟨.inl rfl, List.nil_sublist _⟩
  · rw [List.map_append]
    exact ⟨.inr ⟨high, low, sum⟩, (maybeBuy_tags first).append (maybeBuy_tags second)⟩

/-- **A spread tick is one block** when `cheap_max` is below `expensive_min`: for every engine in
`spread73_22` mode, every store and every account, a tick fills nothing, or read a best ask on
both books and did what one of its two blocks does from the account it started with. -/
theorem step_spread_block (band : cfg.cheapMax < cfg.expensiveMin) {fuel : ℕ}
    {eng eng' : UpDownStrategyEngine} {store : OrderBookStore} {acct acct' : PaperAccount}
    {fills : List Fill} (mode : eng.mode = .spread73_22)
    (result : step cfg mkt fuel eng store acct = some (eng', acct', fills)) :
    fills = [] ∨ ∃ upAsk downAsk, (store.get mkt.upToken).bestAsk = some upAsk ∧
      (store.get mkt.downToken).bestAsk = some downAsk ∧
      (spreadCapture cfg mkt mkt.upToken (store.get mkt.upToken) upAsk "spread73_22_up_exp"
          mkt.downToken (store.get mkt.downToken) downAsk "spread73_22_down_cheap" acct =
            (acct', fills) ∨
        spreadCapture cfg mkt mkt.downToken (store.get mkt.downToken) downAsk "spread73_22_down_exp"
          mkt.upToken (store.get mkt.upToken) upAsk "spread73_22_up_cheap" acct = (acct', fills)) := by
  rcases step_cases result with ⟨-, -, rfl⟩ | ⟨upAsk, downAsk, upBest, downBest,
    ⟨threshold, -⟩ | ⟨-, -, ticked⟩⟩
  · exact .inl rfl
  · exact absurd (mode.symm.trans threshold) (by decide)
  refine .inr ⟨upAsk, downAsk, upBest, downBest, ?_⟩
  rcases first : spreadCapture cfg mkt mkt.upToken (store.get mkt.upToken) upAsk "spread73_22_up_exp"
    mkt.downToken (store.get mkt.downToken) downAsk "spread73_22_down_cheap" acct
    with ⟨acct1, upExpensive⟩
  rcases second : spreadCapture cfg mkt mkt.downToken (store.get mkt.downToken) downAsk
    "spread73_22_down_exp" mkt.upToken (store.get mkt.upToken) upAsk "spread73_22_up_cheap" acct1
    with ⟨acct2, downExpensive⟩
  simp only [stepSpread73_22, first, second, Prod.mk.injEq] at ticked
  obtain ⟨rfl, rfl⟩ := ticked
  by_cases upFires : cfg.expensiveMin ≤ upAsk ∧ downAsk ≤ cfg.cheapMax ∧
      upAsk + downAsk < cfg.spreadSumCap
  · have downQuiet : ¬(cfg.expensiveMin ≤ downAsk ∧ upAsk ≤ cfg.cheapMax ∧
        downAsk + upAsk < cfg.spreadSumCap) := fun ⟨_, upLow, _⟩ => by linarith [upFires.1]
    rw [spreadCapture_of_not acct1 downQuiet, Prod.mk.injEq] at second
    obtain ⟨rfl, rfl⟩ := second
    exact .inl (by simp)
  · rw [spreadCapture_of_not acct upFires, Prod.mk.injEq] at first
    obtain ⟨rfl, rfl⟩ := first
    exact .inr second

/-- **A spread tick fires at most one block** when `cheap_max` is below `expensive_min`. For every
engine in `spread73_22` mode, every store and every account, a tick that fills anything read a
best ask on both books whose sum is below `spread_sum_cap`, with one side at `expensive_min` or
above and the other at `cheap_max` or below; and it bought at most one chunk of the expensive side,
then at most one of the cheap side, under that block's notes. -/
theorem step_spread_one_block (band : cfg.cheapMax < cfg.expensiveMin) {fuel : ℕ}
    {eng eng' : UpDownStrategyEngine} {store : OrderBookStore} {acct acct' : PaperAccount}
    {fills : List Fill} (mode : eng.mode = .spread73_22)
    (result : step cfg mkt fuel eng store acct = some (eng', acct', fills)) (traded : fills ≠ []) :
    ∃ upAsk downAsk, (store.get mkt.upToken).bestAsk = some upAsk ∧
      (store.get mkt.downToken).bestAsk = some downAsk ∧ upAsk + downAsk < cfg.spreadSumCap ∧
      ((cfg.expensiveMin ≤ upAsk ∧ downAsk ≤ cfg.cheapMax ∧ (fills.map Fill.tag).Sublist
          [(mkt.upToken, "spread73_22_up_exp"), (mkt.downToken, "spread73_22_down_cheap")]) ∨
        (cfg.expensiveMin ≤ downAsk ∧ upAsk ≤ cfg.cheapMax ∧ (fills.map Fill.tag).Sublist
          [(mkt.downToken, "spread73_22_down_exp"), (mkt.upToken, "spread73_22_up_cheap")])) := by
  rcases step_spread_block band mode result with quiet | ⟨upAsk, downAsk, upBest, downBest, block⟩
  · exact absurd quiet traded
  refine ⟨upAsk, downAsk, upBest, downBest, ?_⟩
  rcases block with block | block <;>
    obtain ⟨fires | ⟨high, low, sum⟩, tags⟩ := spreadCapture_fires block
  · exact absurd fires traded
  · exact ⟨sum, .inl ⟨high, low, tags⟩⟩
  · exact absurd fires traded
  · exact ⟨by linarith, .inr ⟨high, low, tags⟩⟩

/-- What `_maybe_buy` fills on a ladder sorted cheapest first with best ask `ask`: a fill of its
token, at `ask` a share or more, for at most the dollars asked. -/
theorem maybeBuy_fill_cost {tokenId : String} {ob : OrderBook} {acct acct' : PaperAccount}
    {usd : ℚ} {note : String} {fill : Fill} {ask : ℚ}
    (sorted : ob.asks.Pairwise fun a b => a.1 ≤ b.1) (best : ob.bestAsk = some ask)
    (result : maybeBuy cfg mkt tokenId ob acct usd note = (acct', some fill)) :
    fill.tokenId = tokenId ∧ ask * fill.shares ≤ fill.usd ∧ fill.usd ≤ usd := by
  rcases maybeBuy_cases result with ⟨-, nothing⟩ | ⟨budget, -, -, -, -, bought⟩
  · cases nothing
  obtain rfl := Option.some.inj bought
  exact ⟨rfl, consumeAsksForBuy_bestAsk_mul_le ob usd sorted best,
    consumeAsksForBuy_spent_le ob budget.le⟩

/-- A block that fills anything fired, and on a sorted expensive ladder it spent at most a chunk
on the expensive token, at no less than its best ask a share. -/
theorem spreadCapture_expensive {expensiveToken cheapToken expensiveNote cheapNote : String}
    {expensiveOb cheapOb : OrderBook} {expensiveAsk cheapAsk : ℚ} {acct acct' : PaperAccount}
    {fills : List Fill} (distinct : expensiveToken ≠ cheapToken)
    (sorted : expensiveOb.asks.Pairwise fun a b => a.1 ≤ b.1)
    (best : expensiveOb.bestAsk = some expensiveAsk)
    (result : spreadCapture cfg mkt expensiveToken expensiveOb expensiveAsk expensiveNote cheapToken
      cheapOb cheapAsk cheapNote acct = (acct', fills)) (traded : fills ≠ []) :
    cfg.expensiveMin ≤ expensiveAsk ∧
      expensiveAsk * sharesTo expensiveToken fills ≤
        spentOn (fills.filter fun f => f.tokenId == expensiveToken) ∧
      spentOn (fills.filter fun f => f.tokenId == expensiveToken) ≤ cfg.buyChunkUsd := by
  rcases spreadCapture_cases result with ⟨-, rfl⟩ | ⟨high, -, -, _, expensiveFill, cheapFill, first,
    second, rfl⟩
  · exact absurd rfl traded
  refine ⟨high, ?_⟩
  have cheapToken : ∀ c, cheapFill = some c → c.tokenId ≠ expensiveToken := fun c bought => by
    rcases maybeBuy_cases (bought ▸ second) with ⟨-, nothing⟩ | ⟨-, -, -, -, -, made⟩
    · cases nothing
    · rw [Option.some.inj made]
      exact Ne.symm distinct
  rcases expensiveFill with _ | e
  · rcases cheapFill with _ | c
    · exact absurd rfl traded
    obtain ⟨chunk, -⟩ : 0 < cfg.buyChunkUsd ∧ _ := by
      rcases maybeBuy_cases second with ⟨-, nothing⟩ | ⟨chunk, -⟩
      · cases nothing
      · exact ⟨chunk, trivial⟩
    simp [sharesTo, spentOn, cheapToken c rfl, chunk.le]
  · obtain ⟨token, cost, spent⟩ := maybeBuy_fill_cost sorted best first
    rcases cheapFill with _ | c <;>
      simp [sharesTo, spentOn, token, cheapToken, cost, spent]

/-- **Spread capture buys dollars, not shares.** For every engine in `spread73_22` mode, every
store and every account, with `cheap_max` below `expensive_min`, the market's two tokens distinct
and both books listing their asks cheapest first: a tick that fills anything bought the side
whose best ask is at least `expensive_min` as the expensive one, spending at most
`buy_chunk_usd` on it at no less than that ask a share. So if that side wins, what the tick's
fills redeem, its shares, is at most `buy_chunk_usd / expensive_min`, whatever they spent on the
cheap side. -/
theorem step_spread_expensive_payout (band : cfg.cheapMax < cfg.expensiveMin)
    (distinct : mkt.upToken ≠ mkt.downToken) {fuel : ℕ} {eng eng' : UpDownStrategyEngine}
    {store : OrderBookStore} {acct acct' : PaperAccount} {fills : List Fill}
    (sortedUp : (store.get mkt.upToken).asks.Pairwise fun a b => a.1 ≤ b.1)
    (sortedDown : (store.get mkt.downToken).asks.Pairwise fun a b => a.1 ≤ b.1)
    (mode : eng.mode = .spread73_22)
    (result : step cfg mkt fuel eng store acct = some (eng', acct', fills)) (traded : fills ≠ []) :
    ∃ expensive ∈ [mkt.upToken, mkt.downToken], ∃ ask, (store.get expensive).bestAsk = some ask ∧
      cfg.expensiveMin ≤ ask ∧
      ask * sharesTo expensive fills ≤ spentOn (fills.filter fun f => f.tokenId == expensive) ∧
      spentOn (fills.filter fun f => f.tokenId == expensive) ≤ cfg.buyChunkUsd := by
  rcases step_spread_block band mode result with quiet | ⟨upAsk, downAsk, upBest, downBest, block⟩
  · exact absurd quiet traded
  rcases block with block | block
  · exact ⟨mkt.upToken, by simp, upAsk, upBest,
      spreadCapture_expensive distinct sortedUp upBest block traded⟩
  · exact ⟨mkt.downToken, by simp, downAsk, downBest,
      spreadCapture_expensive (Ne.symm distinct) sortedDown downBest block traded⟩

end Spread

/-- **Spread capture buys dollars, not shares.** `UP` asks 75 cents and `DOWN` 20: the tick buys a
dollar of each, `4/3` shares of `UP` and `5` of `DOWN`, for `2` dollars, so if `UP` wins it redeems
`4/3` dollars. -/
theorem spread_capture_loses_if_up_wins : ∃ eng acct fills,
    step StrategyConfig.default sampleMarket 10 (new StrategyConfig.default .spread73_22)
      (bookPair [(0.75, 100)] [(0.20, 100)]) (freshAccount 100) = some (eng, acct, fills) ∧
    sharesTo sampleMarket.upToken fills = 4 / 3 ∧ sharesTo sampleMarket.downToken fills = 5 ∧
    spentOn fills = 2 := by
  obtain ⟨eng, acct, fills, result, passes⟩ := exists_of_step
    (show (step StrategyConfig.default sampleMarket 10 (new StrategyConfig.default .spread73_22)
      (bookPair [(0.75, 100)] [(0.20, 100)]) (freshAccount 100)).any
        (fun r => decide (sharesTo sampleMarket.upToken r.2.2 = 4 / 3 ∧
          sharesTo sampleMarket.downToken r.2.2 = 5 ∧ spentOn r.2.2 = 2)) = true
      by with_unfolding_all decide)
  exact ⟨eng, acct, fills, result, of_decide_eq_true passes⟩

/-- With the default band, `UP` at 75 cents and `DOWN` at 20 fire the `UP`-expensive block
only. -/
theorem step_spread_one_block_up : StrategyConfig.default.cheapMax < StrategyConfig.default.expensiveMin ∧
    ∃ eng acct fills,
      step StrategyConfig.default sampleMarket 10 (new StrategyConfig.default .spread73_22)
        (bookPair [(0.75, 100)] [(0.20, 100)]) (freshAccount 100) = some (eng, acct, fills) ∧
      fills ≠ [] ∧
      ∃ upAsk downAsk,
        ((bookPair [(0.75, 100)] [(0.20, 100)]).get sampleMarket.upToken).bestAsk = some upAsk ∧
        ((bookPair [(0.75, 100)] [(0.20, 100)]).get sampleMarket.downToken).bestAsk = some downAsk ∧
        upAsk + downAsk < StrategyConfig.default.spreadSumCap ∧
        ((StrategyConfig.default.expensiveMin ≤ upAsk ∧ downAsk ≤ StrategyConfig.default.cheapMax ∧
            (fills.map Fill.tag).Sublist [(sampleMarket.upToken, "spread73_22_up_exp"),
              (sampleMarket.downToken, "spread73_22_down_cheap")]) ∨
          (StrategyConfig.default.expensiveMin ≤ downAsk ∧ upAsk ≤ StrategyConfig.default.cheapMax ∧
            (fills.map Fill.tag).Sublist [(sampleMarket.downToken, "spread73_22_down_exp"),
              (sampleMarket.upToken, "spread73_22_up_cheap")])) := by
  have band : StrategyConfig.default.cheapMax < StrategyConfig.default.expensiveMin := by
    norm_num [StrategyConfig.default]
  obtain ⟨eng, acct, fills, result, passes⟩ := exists_of_step
    (show (step StrategyConfig.default sampleMarket 10 (new StrategyConfig.default .spread73_22)
      (bookPair [(0.75, 100)] [(0.20, 100)]) (freshAccount 100)).any
        (fun r => !r.2.2.isEmpty) = true
      by with_unfolding_all decide)
  have traded : fills ≠ [] := by simpa using passes
  exact ⟨band, eng, acct, fills, result, traded, step_spread_one_block band rfl result traded⟩

/-- With the default band, `UP` at 75 cents and `DOWN` at 20: the tick buys `UP` as the expensive
side, for a dollar at 75 cents a share. -/
theorem step_spread_expensive_payout_up :
    StrategyConfig.default.cheapMax < StrategyConfig.default.expensiveMin ∧
      sampleMarket.upToken ≠ sampleMarket.downToken ∧
      ((bookPair [(0.75, 100)] [(0.20, 100)]).get sampleMarket.upToken).asks.Pairwise
        (fun a b => a.1 ≤ b.1) ∧
      ((bookPair [(0.75, 100)] [(0.20, 100)]).get sampleMarket.downToken).asks.Pairwise
        (fun a b => a.1 ≤ b.1) ∧
      ∃ eng acct fills,
        step StrategyConfig.default sampleMarket 10 (new StrategyConfig.default .spread73_22)
          (bookPair [(0.75, 100)] [(0.20, 100)]) (freshAccount 100) = some (eng, acct, fills) ∧
        fills ≠ [] ∧
        ∃ expensive ∈ [sampleMarket.upToken, sampleMarket.downToken], ∃ ask,
          ((bookPair [(0.75, 100)] [(0.20, 100)]).get expensive).bestAsk = some ask ∧
          StrategyConfig.default.expensiveMin ≤ ask ∧
          ask * sharesTo expensive fills ≤ spentOn (fills.filter fun f => f.tokenId == expensive) ∧
          spentOn (fills.filter fun f => f.tokenId == expensive) ≤
            StrategyConfig.default.buyChunkUsd := by
  have band : StrategyConfig.default.cheapMax < StrategyConfig.default.expensiveMin := by
    norm_num [StrategyConfig.default]
  have distinct : sampleMarket.upToken ≠ sampleMarket.downToken := by decide
  have sortedUp : ((bookPair [(0.75, 100)] [(0.20, 100)]).get sampleMarket.upToken).asks.Pairwise
      (fun a b => a.1 ≤ b.1) := by with_unfolding_all decide
  have sortedDown : ((bookPair [(0.75, 100)] [(0.20, 100)]).get sampleMarket.downToken).asks.Pairwise
      (fun a b => a.1 ≤ b.1) := by with_unfolding_all decide
  obtain ⟨eng, acct, fills, result, passes⟩ := exists_of_step
    (show (step StrategyConfig.default sampleMarket 10 (new StrategyConfig.default .spread73_22)
      (bookPair [(0.75, 100)] [(0.20, 100)]) (freshAccount 100)).any
        (fun r => !r.2.2.isEmpty) = true
      by with_unfolding_all decide)
  have traded : fills ≠ [] := by simpa using passes
  exact ⟨band, distinct, sortedUp, sortedDown, eng, acct, fills, result, traded,
    step_spread_expensive_payout band distinct sortedUp sortedDown rfl result traded⟩

end PaperTrader
