/-
**The paper trader's data model.**

The records of `main.py`, with Python's floats read as exact rationals and its datetimes as
rational seconds:

* `StrategyConfig` and `StrategyConfig.default` — the configuration `main` builds (every field a
  modelled function reads, with the source's default);
* `OrderBook`, `OrderBookStore` — a token's ladders and the store of books by token id, where an
  unknown token has the empty book;
* `Position`, `PaperAccount` — shares and cost by token id, and the account's cash;
* `Fill`, `MarketResult`, `ActiveMarket` — the audit records and the bound market.

A field the program sets but no modelled function reads (a book's `last_update_ts`, the
timestamps of `Fill` and `MarketResult`, file paths) is left out.
-/

import PaperTrader.Data.Dict
import Mathlib.Tactic.NormNum
import Mathlib.Tactic.Linarith
import Mathlib.Tactic.Positivity

namespace PaperTrader

/-- The two outcomes of a market, the source's labels `"UP"` and `"DOWN"`. -/
inductive Side
  | up
  | down
  deriving DecidableEq, Repr

/-- The label the source writes for a side. -/
def Side.label : Side → String
  | .up => "UP"
  | .down => "DOWN"

/-- The engine's `mode`, one of the two choices of `--mode`. -/
inductive Mode
  | threshold35
  | spread73_22
  deriving DecidableEq, Repr

/-- The source's `1e-9`, the dust below which an amount counts as spent or caught up. -/
def epsilon : ℚ := 1 / 1000000000

theorem epsilon_pos : 0 < epsilon := by
  unfold epsilon
  norm_num

/-- `clamp(n, lo, hi) = max(lo, min(hi, n))`. -/
def clamp (n lo hi : ℚ) : ℚ := max lo (min hi n)

/-- The fields of `StrategyConfig` that the modelled functions read. -/
structure StrategyConfig where
  symbols : List String
  slugPrefixMap : Dict String
  discoveryRefreshSec : ℚ
  buyChunkUsd : ℚ
  maxSideSpendUsd : ℚ
  requireFreeCash : ℚ
  entryAskCents : ℚ
  dcaStepCents : ℚ
  dcaLevels : ℕ
  sumCapDollars : ℚ
  expensiveMin : ℚ
  cheapMax : ℚ
  spreadSumCap : ℚ
  settleGraceSec : ℚ
  settleSignalBid : ℚ
  settleMaxWaitSec : ℚ
  preferWebsocket : Bool

/-- The prefix map `__post_init__` installs. -/
def defaultSlugPrefixMap : Dict String :=
  ⟨[("BTC", "btc-updown-15m-"), ("ETH", "eth-updown-15m-"), ("SOL", "sol-updown-15m-"),
    ("XRP", "xrp-updown-15m-")], by decide⟩

/-- `StrategyConfig()`, the configuration `main` runs with (`--prefer-rest` only turns
`prefer_websocket` off). -/
def StrategyConfig.default : StrategyConfig where
  symbols := ["BTC", "ETH", "SOL", "XRP"]
  slugPrefixMap := defaultSlugPrefixMap
  discoveryRefreshSec := 10.0
  buyChunkUsd := 1.0
  maxSideSpendUsd := 4.0
  requireFreeCash := 0.05
  entryAskCents := 35.0
  dcaStepCents := 5.0
  dcaLevels := 3
  sumCapDollars := 0.99
  expensiveMin := 0.73
  cheapMax := 0.22
  spreadSumCap := 1.00
  settleGraceSec := 5.0
  settleSignalBid := 0.99
  settleMaxWaitSec := 180.0
  preferWebsocket := true

/-! ### Books -/

/-- A token's book as the engine reads it: `(price, size)` levels, bids best first and asks best
first, every price and size a finite float. The feed's books hold Python floats, `nan` and the
infinities included (`PyOrderBook`); the engine's results hold of the books whose floats are all
finite (`PyOrderBook.toOrderBook?`), and a book with a `nan` is outside them. -/
structure OrderBook where
  bids : List (ℚ × ℚ) := []
  asks : List (ℚ × ℚ) := []
  deriving DecidableEq, Repr

/-- `best_bid`: the first bid's price, if any. -/
def OrderBook.bestBid (ob : OrderBook) : Option ℚ := ob.bids.head?.map Prod.fst

/-- `best_ask`: the first ask's price, if any. -/
def OrderBook.bestAsk (ob : OrderBook) : Option ℚ := ob.asks.head?.map Prod.fst

/-- The store's `_books`: the latest book of each token id. -/
structure OrderBookStore where
  books : Dict OrderBook
  deriving DecidableEq

/-- `OrderBookStore.get`: the token's book, or an empty one. -/
def OrderBookStore.get (store : OrderBookStore) (tokenId : String) : OrderBook :=
  store.books.getD tokenId {}

/-! ### Positions and accounts -/

/-- A position in one token. -/
structure Position where
  shares : ℚ := 0
  costUsd : ℚ := 0
  deriving DecidableEq, Repr

/-- `Position.avg_price`: cost per share, `0` without shares. -/
def Position.avgPrice (pos : Position) : ℚ := if pos.shares ≤ 0 then 0 else pos.costUsd / pos.shares

/-- A paper account: its symbol, its cash and its positions by token id. -/
structure PaperAccount where
  symbol : String
  cash : ℚ
  positions : Dict Position
  deriving DecidableEq

/-- `acct.positions.get(token_id, Position())`. -/
def PaperAccount.position (acct : PaperAccount) (tokenId : String) : Position :=
  acct.positions.getD tokenId {}

/-- The account's cash and the cost of all its positions. -/
def PaperAccount.total (acct : PaperAccount) : ℚ := acct.cash + acct.positions.sumBy Position.costUsd

/-! ### Markets and records -/

/-- The market the driver trades: symbol, slug, condition id, end time and the two tokens. -/
structure ActiveMarket where
  symbol : String
  slug : String
  conditionId : String
  endTime : ℚ
  upToken : String
  downToken : String
  deriving DecidableEq, Repr

/-- One simulated buy, as `log_fill` records it. -/
structure Fill where
  slug : String
  symbol : String
  tokenId : String
  side : String
  price : ℚ
  shares : ℚ
  usd : ℚ
  note : String
  deriving DecidableEq, Repr

/-- One settled market, as `log_result` records it. -/
structure MarketResult where
  slug : String
  symbol : String
  endTime : ℚ
  winner : Side
  upToken : String
  downToken : String
  upShares : ℚ
  downShares : ℚ
  upCost : ℚ
  downCost : ℚ
  pnl : ℚ
  balanceAfter : ℚ
  deriving DecidableEq, Repr

end PaperTrader
