/-
**`settle_market`: who won, and the redemption.**

* `pickWinnerFromBook`, `forcePickWinner` — the signal test on the two best bids and the
  forced decision at the timeout;
* `settleWait` — the polling loop, read as the clock reading at each check of its condition and
  the store the poll then reads;
* `settleMarket` — the winner, the redemption of the winner's shares at `1.0`, both positions
  zeroed and the `MarketResult`;
* `settleMarket_spec` — what settlement does to the account: cash up by the winner's shares,
  the market's two tokens at `(0, 0)`, every other token unchanged, `pnl = redeem − (up_cost +
  down_cost)`;
* `settleMarket_winner`, `pickWinnerFromBook_eq_some` — the winner is the side signalled at the
  first poll within the wait that signals, else `force_pick_winner` on the final books, and a
  poll signals only while both books have a bid;
* `settle_misses_signal_without_other_bid` — so a bid at the signal is passed over while the
  other book is empty, and a later poll can declare the other side.
-/

import PaperTrader.Data.Types

namespace PaperTrader

/-- `pick_winner_from_book(mkt, store, settle_signal_bid)`: the side whose best bid has reached
the signal, `UP` first; nothing while either book has no bid. -/
def pickWinnerFromBook (mkt : ActiveMarket) (store : OrderBookStore) (settleSignalBid : ℚ) :
    Option Side :=
  match (store.get mkt.upToken).bestBid, (store.get mkt.downToken).bestBid with
  | some upBid, some downBid =>
    if settleSignalBid ≤ upBid then some .up
    else if settleSignalBid ≤ downBid then some .down
    else none
  | _, _ => none

/-- `force_pick_winner(mkt, store)`: the higher best bid, a side without bids counting `0`, and
`UP` on a tie. -/
def forcePickWinner (mkt : ActiveMarket) (store : OrderBookStore) : Side :=
  let upBid := ((store.get mkt.upToken).bestBid).getD 0.0
  let downBid := ((store.get mkt.downToken).bestBid).getD 0.0
  if downBid < upBid then .up
  else if upBid < downBid then .down
  else .up

/-- The polling loop of `settle_market`: for each check of `time.time() - start_wait <
settle_max_wait_sec`, the clock reading and the store the poll then reads. It returns the first
signalled winner, or nothing once the wait is over. -/
def settleWait (cfg : StrategyConfig) (mkt : ActiveMarket) (startWait : ℚ) :
    List (ℚ × OrderBookStore) → Option Side
  | [] => none
  | (now, store) :: polls =>
    if now - startWait < cfg.settleMaxWaitSec then
      match pickWinnerFromBook mkt store cfg.settleSignalBid with
      | some winner => some winner
      | none => settleWait cfg mkt startWait polls
    else none

/-- `settle_market(mkt, store, acct, flog, cfg, uploader)`: the polls from `startWait`, then
`force_pick_winner` on `final` if no winner was signalled; the account after the redemption and
the result it logs. -/
def settleMarket (cfg : StrategyConfig) (mkt : ActiveMarket) (startWait : ℚ)
    (polls : List (ℚ × OrderBookStore)) (final : OrderBookStore) (acct : PaperAccount) :
    PaperAccount × MarketResult :=
  let upPos := acct.position mkt.upToken
  let downPos := acct.position mkt.downToken
  let winner :=
    match settleWait cfg mkt startWait polls with
    | some winner => winner
    | none => forcePickWinner mkt final
  let redeem := (if winner = .up then upPos.shares else downPos.shares) * 1.0
  let cash := acct.cash + redeem
  let positions := (acct.positions.insert mkt.upToken ⟨0.0, 0.0⟩).insert mkt.downToken ⟨0.0, 0.0⟩
  let pnl := redeem - (upPos.costUsd + downPos.costUsd)
  ({ acct with cash := cash, positions := positions },
    { slug := mkt.slug, symbol := mkt.symbol, endTime := mkt.endTime, winner := winner,
      upToken := mkt.upToken, downToken := mkt.downToken, upShares := upPos.shares,
      downShares := downPos.shares, upCost := upPos.costUsd, downCost := downPos.costUsd,
      pnl := pnl, balanceAfter := cash })

section Spec

variable (cfg : StrategyConfig) (mkt : ActiveMarket) (startWait : ℚ)
  (polls : List (ℚ × OrderBookStore)) (final : OrderBookStore) (acct : PaperAccount)

/-- The shares settlement redeems: the winner's, before settlement. -/
def MarketResult.redeemed (result : MarketResult) : ℚ :=
  if result.winner = .up then result.upShares else result.downShares

/-- **What settlement does.** The result records the two positions before settlement; cash goes
up by the winner's shares; both of the market's tokens end at `(0, 0)`; every other token keeps
its position; the pnl is the redemption less both costs, and the balance is the new cash. -/
theorem settleMarket_spec :
    (settleMarket cfg mkt startWait polls final acct).2.upShares = (acct.position mkt.upToken).shares ∧
      (settleMarket cfg mkt startWait polls final acct).2.downShares =
        (acct.position mkt.downToken).shares ∧
      (settleMarket cfg mkt startWait polls final acct).2.upCost =
        (acct.position mkt.upToken).costUsd ∧
      (settleMarket cfg mkt startWait polls final acct).2.downCost =
        (acct.position mkt.downToken).costUsd ∧
      (settleMarket cfg mkt startWait polls final acct).2.upToken = mkt.upToken ∧
      (settleMarket cfg mkt startWait polls final acct).2.downToken = mkt.downToken ∧
      (settleMarket cfg mkt startWait polls final acct).1.cash =
        acct.cash + (settleMarket cfg mkt startWait polls final acct).2.redeemed ∧
      (settleMarket cfg mkt startWait polls final acct).1.position mkt.upToken = ⟨0, 0⟩ ∧
      (settleMarket cfg mkt startWait polls final acct).1.position mkt.downToken = ⟨0, 0⟩ ∧
      (∀ t, t ≠ mkt.upToken → t ≠ mkt.downToken →
        (settleMarket cfg mkt startWait polls final acct).1.position t = acct.position t) ∧
      (settleMarket cfg mkt startWait polls final acct).2.pnl =
        (settleMarket cfg mkt startWait polls final acct).2.redeemed -
          ((settleMarket cfg mkt startWait polls final acct).2.upCost +
            (settleMarket cfg mkt startWait polls final acct).2.downCost) ∧
      (settleMarket cfg mkt startWait polls final acct).2.balanceAfter =
        (settleMarket cfg mkt startWait polls final acct).1.cash ∧
      (settleMarket cfg mkt startWait polls final acct).1.symbol = acct.symbol := by
  simp only [settleMarket, MarketResult.redeemed, PaperAccount.position, Dict.getD_insert]
  norm_num
  intro t up down
  simp [up, down]

end Spec

/-! ### Who wins -/

section Winner

variable (cfg : StrategyConfig) (mkt : ActiveMarket) (startWait : ℚ)

/-- The polls `settle_market` makes: those before the first failed check of
`time.time() - start_wait < settle_max_wait_sec`. -/
def pollsWithinWait (polls : List (ℚ × OrderBookStore)) : List (ℚ × OrderBookStore) :=
  polls.takeWhile fun poll => decide (poll.1 - startWait < cfg.settleMaxWaitSec)

/-- The wait returns the first winner signalled by a poll it makes. -/
theorem settleWait_eq_findSome (polls : List (ℚ × OrderBookStore)) :
    settleWait cfg mkt startWait polls = (pollsWithinWait cfg startWait polls).findSome? fun poll =>
      pickWinnerFromBook mkt poll.2 cfg.settleSignalBid := by
  induction polls with
  | nil => rfl
  | cons poll polls ih =>
    obtain ⟨now, store⟩ := poll
    simp only [settleWait, pollsWithinWait, List.takeWhile_cons, decide_eq_true_eq] at ih ⊢
    split_ifs with within
    · rw [List.findSome?_cons]
      split <;> simp_all
    · rfl

/-- **`pick_winner_from_book` signals only where both books have a bid**: `UP` when its best bid
has reached the signal, else `DOWN` when its has. -/
theorem pickWinnerFromBook_eq_some {store : OrderBookStore} {signal : ℚ} {side : Side} :
    pickWinnerFromBook mkt store signal = some side ↔
      ∃ upBid downBid, (store.get mkt.upToken).bestBid = some upBid ∧
        (store.get mkt.downToken).bestBid = some downBid ∧
        (side = .up ∧ signal ≤ upBid ∨ side = .down ∧ upBid < signal ∧ signal ≤ downBid) := by
  unfold pickWinnerFromBook
  rcases (store.get mkt.upToken).bestBid with _ | upBid <;>
    rcases (store.get mkt.downToken).bestBid with _ | downBid
  · simp
  · simp
  · simp
  · dsimp only
    split_ifs with upSignal downSignal <;> cases side <;> simp_all

/-- **The winner settlement declares**: the side signalled at the first poll within the wait
that signals one, and `force_pick_winner` on the final books when none does. -/
theorem settleMarket_winner (polls : List (ℚ × OrderBookStore)) (final : OrderBookStore)
    (acct : PaperAccount) :
    (settleMarket cfg mkt startWait polls final acct).2.winner =
      ((pollsWithinWait cfg startWait polls).findSome? fun poll =>
        pickWinnerFromBook mkt poll.2 cfg.settleSignalBid).getD (forcePickWinner mkt final) := by
  simp only [settleMarket, ← settleWait_eq_findSome]
  cases settleWait cfg mkt startWait polls <;> rfl

end Winner

/-- **A signal is passed over while the other book is empty.** At the first poll `UP`'s best bid
is at `settle_signal_bid` but `DOWN` has no bid, so the poll signals nothing; at the second
`DOWN`'s bid has reached it, and settlement declares `DOWN`, not the side first signalled. -/
theorem settle_misses_signal_without_other_bid :
    let mkt : ActiveMarket := ⟨"BTC", "btc-updown-15m-1", "c", 1000, "U", "D"⟩
    let first : OrderBookStore := ⟨⟨[("U", { bids := [(0.99, 1)] })], by decide⟩⟩
    let second : OrderBookStore :=
      ⟨⟨[("U", { bids := [(0.50, 1)] }), ("D", { bids := [(0.99, 1)] })], by decide⟩⟩
    (first.get mkt.upToken).bestBid = some StrategyConfig.default.settleSignalBid ∧
      (first.get mkt.downToken).bestBid = none ∧
      0 - 0 < StrategyConfig.default.settleMaxWaitSec ∧
      (settleMarket StrategyConfig.default mkt 0 [(0, first), (0.5, second)] second
        ⟨"BTC", 100, Dict.empty⟩).2.winner = .down := by
  with_unfolding_all decide

end PaperTrader
