import PaperTrader.Data.Dict
import PaperTrader.Data.Types
import PaperTrader.Data.Json
import PaperTrader.Book.Consume
import PaperTrader.Book.Monotone
import PaperTrader.Engine.Step
import PaperTrader.Settle.Settle
import PaperTrader.Ledger.Invariants
import PaperTrader.Engine.MarketRun
import PaperTrader.Engine.Fills
import PaperTrader.Engine.Ladder
import PaperTrader.Engine.Liveness
import PaperTrader.Ledger.Audit
import PaperTrader.Driver.Discovery
import PaperTrader.Persist.State
import PaperTrader.Driver.Loop
import PaperTrader.Driver.Runs
import PaperTrader.Feed.Workers
import PaperTrader.Feed.Snapshot
import PaperTrader.Feed.Store
