/-
**The store of books under both feed threads.**

`on_message` on the stream thread and the REST poller on its own thread write one
`OrderBookStore`: each parses outside the lock and writes a whole book under it, so the store goes
through whole updates, in whatever interleaving the two threads make. `onMessage_cases` and
`restPollItem_cases` say what each path can do to it: nothing, or one `update_from_snapshot`
that did not raise. From them:

* `FeedStoreRun` — the stores an interleaving of stream messages and REST items reaches; a whole
  REST batch is one of its runs (`FeedStoreRun.restPollBatch`);
* `FeedStoreRun.ordered` — **in every reachable store every book is ordered** where its prices
  are not `nan`: bids best first, asks cheapest first;
* `FeedStoreRun.engine_sorted` — so every book the engine can read with finite values has its asks
  cheapest first and its bids best first, the ladders `consume_asks_for_buy` is proved greedy and
  monotone on, in whatever order the two threads write.
-/

import PaperTrader.Feed.Snapshot

namespace PaperTrader

/-! ### Ordered books -/

/-- A book in `update_from_snapshot`'s order on every side with no `nan` price: bids best first,
asks cheapest first. -/
def PyOrderBook.Ordered (ob : PyOrderBook) : Prop :=
  ((∀ level ∈ ob.bids, level.1 ≠ .nan) → ob.bids.Pairwise fun a b => b.1.toExt ≤ a.1.toExt) ∧
    ((∀ level ∈ ob.asks, level.1 ≠ .nan) → ob.asks.Pairwise fun a b => a.1.toExt ≤ b.1.toExt)

/-- Every book of the store is ordered, the empty book of a missing token included. -/
def PyOrderBookStore.Ordered (store : PyOrderBookStore) : Prop := ∀ t, (store.get t).Ordered

theorem PyOrderBookStore.empty_ordered : (⟨Dict.empty⟩ : PyOrderBookStore).Ordered := fun _ =>
  ⟨fun _ => List.Pairwise.nil, fun _ => List.Pairwise.nil⟩

/-- An ordered book read with finite values has its asks cheapest first and its bids best
first. -/
theorem PyOrderBook.Ordered.toOrderBook_sorted {ob : PyOrderBook} (ordered : ob.Ordered)
    {book : OrderBook} (finite : ob.toOrderBook? = some book) :
    book.asks.Pairwise (fun a b => a.1 ≤ b.1) ∧ book.bids.Pairwise (fun a b => b.1 ≤ a.1) := by
  unfold PyOrderBook.toOrderBook? at finite
  split at finite
  next bidValues askValues bidsFinite asksFinite =>
    cases finite
    have bidFacts := sorted_of_mapM_finiteLevel bidsFinite
    have askFacts := sorted_of_mapM_finiteLevel asksFinite
    exact ⟨askFacts.2.1 (ordered.2 askFacts.1), bidFacts.2.2 (ordered.1 bidFacts.1)⟩
  next => cases finite

section Paths

variable {py : PyBuiltins} {store store' : PyOrderBookStore}

/-- **An update keeps the store ordered**: the token's new book is sorted where it has no `nan`,
and no other book changes. -/
theorem updateFromSnapshot_ordered {tokenId : String} {bids asks : JsonValue}
    (result : store.updateFromSnapshot py tokenId bids asks = .ok store') (ordered : store.Ordered) :
    store'.Ordered := by
  obtain ⟨-, -, -, -, -, -, others, bidSide, askSide⟩ := updateFromSnapshot_book result
  intro t
  by_cases same : t = tokenId
  · subst same
    exact ⟨fun numbers => (bidSide numbers).1, fun numbers => (askSide numbers).1⟩
  · rw [others t same]
    exact ordered t

/-! ### What each path writes -/

/-- **What `on_message` can do to the store:** nothing, or one update that did not raise. -/
theorem onMessage_cases {msg : Option JsonValue} (result : onMessage py store msg = .ok store') :
    store' = store ∨ ∃ tokenId bids asks, store.updateFromSnapshot py tokenId bids asks = .ok store' := by
  cases msg with
  | none => exact .inl (Except.ok.inj result).symm
  | some data =>
    simp only [onMessage, except_bind_eq_ok] at result
    obtain ⟨_, -, result⟩ := result
    split_ifs at result
    · simp only [except_bind_eq_ok] at result
      obtain ⟨_, -, _, -, _, -, _, -, _, -, _, -, result⟩ := result
      split_ifs at result
      · exact .inr ⟨_, _, _, result⟩
      · exact .inl (Except.ok.inj result).symm
    · exact .inl (Except.ok.inj result).symm

/-- **What one item of a REST batch can do to the store:** nothing, or one update that did not
raise. -/
theorem restPollItem_cases {item : JsonValue} (result : restPollItem py store item = .ok store') :
    store' = store ∨ ∃ tokenId bids asks, store.updateFromSnapshot py tokenId bids asks = .ok store' := by
  simp only [restPollItem, except_bind_eq_ok] at result
  obtain ⟨_, -, _, -, _, -, _, -, result⟩ := result
  split_ifs at result
  · exact .inr ⟨_, _, _, result⟩
  · exact .inl (Except.ok.inj result).symm

end Paths

/-! ### Interleavings of the two threads -/

/-- The stores the two threads reach from `start`: stream messages and REST items that do not
raise, in any order (a message or an item that raises leaves the store as it was). -/
inductive FeedStoreRun (py : PyBuiltins) (start : PyOrderBookStore) : PyOrderBookStore → Prop
  | start : FeedStoreRun py start start
  | message {store store' : PyOrderBookStore} (msg : Option JsonValue) :
      FeedStoreRun py start store → onMessage py store msg = .ok store' →
      FeedStoreRun py start store'
  | restItem {store store' : PyOrderBookStore} (item : JsonValue) :
      FeedStoreRun py start store → restPollItem py store item = .ok store' →
      FeedStoreRun py start store'

namespace FeedStoreRun

variable {py : PyBuiltins} {start store : PyOrderBookStore}

theorem restPollItems : ∀ {store : PyOrderBookStore}, FeedStoreRun py start store →
    ∀ items, FeedStoreRun py start (PaperTrader.restPollItems py store items).1
  | _, run, [] => run
  | _, run, item :: rest => by
    simp only [PaperTrader.restPollItems]
    split
    · next stored => exact restPollItems (run.restItem item stored) rest
    · exact run

/-- A whole batch of the poller is a run of its items. -/
theorem restPollBatch (run : FeedStoreRun py start store) (body : Option JsonValue) :
    FeedStoreRun py start (PaperTrader.restPollBatch py store body).1 := by
  unfold PaperTrader.restPollBatch
  split
  · exact run.restPollItems _
  · exact run

/-- **Every reachable store is ordered**: whatever the interleaving, each book's bids are best
first and its asks cheapest first wherever its prices are not `nan`. -/
theorem ordered (run : FeedStoreRun py start store) (initial : start.Ordered) : store.Ordered := by
  induction run with
  | start => exact initial
  | message _ _ result ih =>
    rcases onMessage_cases result with rfl | ⟨_, _, _, updated⟩
    · exact ih
    · exact updateFromSnapshot_ordered updated ih
  | restItem _ _ result ih =>
    rcases restPollItem_cases result with rfl | ⟨_, _, _, updated⟩
    · exact ih
    · exact updateFromSnapshot_ordered updated ih

/-- **The engine reads sorted ladders, whatever the threads' order.** From an empty store, every
book of every reachable store that the engine can read with finite values has its asks cheapest
first and its bids best first. -/
theorem engine_sorted (run : FeedStoreRun py ⟨Dict.empty⟩ store) (tokenId : String)
    {book : OrderBook} (finite : (store.get tokenId).toOrderBook? = some book) :
    book.asks.Pairwise (fun a b => a.1 ≤ b.1) ∧ book.bids.Pairwise (fun a b => b.1 ≤ a.1) :=
  (run.ordered PyOrderBookStore.empty_ordered tokenId).toOrderBook_sorted finite

/-- A stream message that lists `U`'s asks dearest first is stored cheapest first, and the engine
reads it so. -/
theorem engine_sorted_book_event :
    ∃ store, FeedStoreRun ⟨fun _ => none, fun _ => ""⟩ ⟨Dict.empty⟩ store ∧
      ∃ book, (store.get "U").toOrderBook? = some book ∧ book.asks = [(0.30, 5), (0.31, 10)] ∧
        book.asks.Pairwise (fun a b => a.1 ≤ b.1) ∧ book.bids.Pairwise (fun a b => b.1 ≤ a.1) := by
  obtain ⟨store, stored, finite⟩ : ∃ store,
      onMessage ⟨fun _ => none, fun _ => ""⟩ ⟨Dict.empty⟩
        (some (.obj [("event_type", .str "book"), ("asset_id", .str "U"),
          ("asks", .arr [.obj [("price", .num (.finite 0.31)), ("size", .num (.finite 10))],
            .obj [("price", .num (.finite 0.30)), ("size", .num (.finite 5))]])])) = .ok store ∧
      (store.get "U").toOrderBook? = some { asks := [(0.30, 5), (0.31, 10)] } :=
    ⟨_, rfl, by with_unfolding_all decide⟩
  have run := FeedStoreRun.message _ .start stored
  exact ⟨store, run, _, finite, rfl, engine_sorted run "U" finite⟩

end FeedStoreRun

end PaperTrader
