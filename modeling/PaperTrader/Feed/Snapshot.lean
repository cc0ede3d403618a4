/-
**`update_from_snapshot` and the two paths that call it.**

The feed's books hold Python floats, as `update_from_snapshot` parses them (`PyOrderBook`); the
engine's `OrderBook` is the case where every one is finite (`PyOrderBook.toOrderBook?`).

* `parseLevels`, `sortLevels`, `PyOrderBookStore.updateFromSnapshot` — the loop over a side's
  levels through `safe_float`, CPython's stable sort, and the update of the store;
* `onMessage`, `restPollItem`, `restPollBatch` — the stream's `on_message` and one batch of the
  REST poller;
* `parseLevels_eq_ok` — a side parses exactly when each of its levels is a dict, into the levels
  whose price and size both parse, in order;
* `updateFromSnapshot_book` — an update that does not raise stores each parsed level as often as
  given and nothing else, changes no other token's book, and, where no price is `nan`, orders the
  bids best first and the asks cheapest first, so that `best_bid` is at least every bid and
  `best_ask` at most every ask;
* `restPollItems_eq` — a REST batch is stored item by item until an item raises, and the items
  after it are lost;
* `sorted_of_mapM_finiteLevel` — a ladder read with finite values keeps the order it was stored
  in, which `Feed.Store` turns into the sorted ladders the engine reads;
* `update_from_snapshot_nan_unordered` — a `nan` price parses, and then the bids are out of order
  and `best_bid` is not at least a listed bid;
* `malformed_level_drops_batch` — a level that is not a dict raises out of `update_from_snapshot`:
  `on_message` raises, and the REST poller loses the rest of its batch.
-/

import PaperTrader.Data.Json
import PaperTrader.Data.Types
import Mathlib.Data.List.Sort

namespace PaperTrader

/-- An `OrderBook` as `update_from_snapshot` builds it: `(price, size)` levels as Python floats,
bids best first and asks cheapest first. -/
structure PyOrderBook where
  bids : List (PyFloat × PyFloat) := []
  asks : List (PyFloat × PyFloat) := []
  deriving DecidableEq, Repr

/-- `best_bid`: the first bid's price, if any. -/
def PyOrderBook.bestBid (ob : PyOrderBook) : Option PyFloat := ob.bids.head?.map Prod.fst

/-- `best_ask`: the first ask's price, if any. -/
def PyOrderBook.bestAsk (ob : PyOrderBook) : Option PyFloat := ob.asks.head?.map Prod.fst

/-- The store's `_books`, as the feed writes them. -/
structure PyOrderBookStore where
  books : Dict PyOrderBook
  deriving DecidableEq

/-- `OrderBookStore.get`: the token's book, or an empty one. -/
def PyOrderBookStore.get (store : PyOrderBookStore) (tokenId : String) : PyOrderBook :=
  store.books.getD tokenId {}

/-! ### The update -/

section Update

variable (py : PyBuiltins)

/-- The level a dict's `price` and `size` make through `safe_float`, when both parse. -/
def levelOf (price size : JsonValue) : Option (PyFloat × PyFloat) :=
  match safeFloat py price, safeFloat py size with
  | some p, some s => some (p, s)
  | _, _ => none

/-- One pass of `update_from_snapshot`'s loop over a side: `lvl.get("price")` and
`lvl.get("size")`, which raise on a level that is not a dict, then the level if both parse. -/
def parseLevel (lvl : JsonValue) : Except PyError (Option (PyFloat × PyFloat)) :=
  match lvl.get "price", lvl.get "size" with
  | .ok price, .ok size => .ok (levelOf py price size)
  | .error e, _ => .error e
  | .ok _, .error e => .error e

/-- The loop over a side's levels, in order; the first level that raises ends it. -/
def parseLevels : List JsonValue → Except PyError (List (PyFloat × PyFloat))
  | [] => .ok []
  | lvl :: rest =>
    match parseLevel py lvl with
    | .error e => .error e
    | .ok level =>
      match parseLevels rest with
      | .error e => .error e
      | .ok kept => .ok (level.toList ++ kept)

/-- `a` may stand before `b` in an ascending sort by price: `not b[0] < a[0]`. -/
def priceNotAbove (a b : PyFloat × PyFloat) : Prop := b.1.lt a.1 = false

instance : DecidableRel priceNotAbove := fun _ _ => inferInstanceAs (Decidable (_ = false))

/-- `levels.sort(key=lambda x: x[0], reverse=reverse)`. CPython's sort is stable and compares
keys with `<` only; with `reverse` it reverses the list, sorts it, and reverses the result. The
model sorts by insertion, which gives CPython's order whenever no key is `nan` (the stable order is
then unique), and on the two-level lists with a `nan` key used below. -/
def sortLevels (reverse : Bool) (levels : List (PyFloat × PyFloat)) : List (PyFloat × PyFloat) :=
  if reverse then (levels.reverse.insertionSort priceNotAbove).reverse
  else levels.insertionSort priceNotAbove

/-- `update_from_snapshot(token_id, bids, asks)`: both sides parsed (`bids or []`, `asks or []`),
the bids sorted best first and the asks cheapest first, and the book stored under `token_id`; an
exception leaves the store as it was. -/
def PyOrderBookStore.updateFromSnapshot (store : PyOrderBookStore) (tokenId : String)
    (bids asks : JsonValue) : Except PyError PyOrderBookStore := do
  let bb ← parseLevels py (← (bids.orElse (.arr [])).iter)
  let aa ← parseLevels py (← (asks.orElse (.arr [])).iter)
  pure ⟨store.books.insert tokenId ⟨sortLevels true bb, sortLevels false aa⟩⟩

/-- `on_message(ws, message)`, given what `json.loads(message)` returned (`none` when it raised,
which `on_message` catches): a `book` event updates the store under its `asset_id` or `token_id`;
what `data.get` or `update_from_snapshot` raise leaves `on_message`. -/
def onMessage (store : PyOrderBookStore) : Option JsonValue → Except PyError PyOrderBookStore
  | none => .ok store
  | some data => do
    if (← data.get "event_type").isStr "book" then
      let tokenId := py.str (((← data.get "asset_id").orElse (← data.get "token_id")).orElse
        (.str ""))
      let bids := ((← data.get "bids").orElse (← data.get "buys")).orElse (.arr [])
      let asks := ((← data.get "asks").orElse (← data.get "sells")).orElse (.arr [])
      if tokenId ≠ "" then store.updateFromSnapshot py tokenId bids asks else .ok store
    else .ok store

/-- One item of a REST `/books` batch: as a stream message, without the `event_type` test and
with only `bids` and `asks`. -/
def restPollItem (store : PyOrderBookStore) (item : JsonValue) :
    Except PyError PyOrderBookStore := do
  let tid := py.str (((← item.get "asset_id").orElse (← item.get "token_id")).orElse (.str ""))
  let bids := (← item.get "bids").orElse (.arr [])
  let asks := (← item.get "asks").orElse (.arr [])
  if tid ≠ "" then store.updateFromSnapshot py tid bids asks else .ok store

/-- The items of a batch in order: the store after them, or, when one raises, the store the items
before it left, with the exception, which the poller's `except` swallows. -/
def restPollItems : PyOrderBookStore → List JsonValue → PyOrderBookStore × Option PyError
  | store, [] => (store, none)
  | store, item :: rest =>
    match restPollItem py store item with
    | .ok store' => restPollItems store' rest
    | .error e => (store, some e)

/-- One iteration of `_rest_poll_loop`, given the response body (`none` when the request raised,
the status was not `200` or `r.json()` raised): a list is stored item by item, and anything else
changes nothing. -/
def restPollBatch (store : PyOrderBookStore) : Option JsonValue → PyOrderBookStore × Option PyError
  | some (.arr items) => restPollItems py store items
  | _ => (store, none)

end Update

/-! ### What an update stores -/

section Stored

variable {py : PyBuiltins}

/-- The level of a dict; nothing for anything else, which `parseLevel` raises on. -/
def dictLevel (py : PyBuiltins) : JsonValue → Option (PyFloat × PyFloat)
  | .obj fields => levelOf py ((fields.lookup "price").getD .null) ((fields.lookup "size").getD .null)
  | _ => none

/-- A value `d.get` accepts. -/
def JsonValue.IsDict : JsonValue → Prop
  | .obj _ => True
  | _ => False

theorem parseLevel_eq_ok {lvl : JsonValue} {level : Option (PyFloat × PyFloat)} :
    parseLevel py lvl = .ok level ↔ lvl.IsDict ∧ level = dictLevel py lvl := by
  cases lvl
  case obj fields =>
    simp only [parseLevel, JsonValue.get, JsonValue.getD, dictLevel, JsonValue.IsDict, true_and,
      Except.ok.injEq]
    exact eq_comm
  all_goals simp [parseLevel, JsonValue.get, JsonValue.getD, JsonValue.IsDict]

theorem parseLevel_of_not_dict {lvl : JsonValue} (notDict : ¬ lvl.IsDict) :
    parseLevel py lvl = .error .attributeError := by
  cases lvl <;> simp_all [parseLevel, JsonValue.get, JsonValue.getD, JsonValue.IsDict]

/-- **A side parses exactly when each of its levels is a dict**, into the levels whose price and
size both parse with `safe_float`, in their order. -/
theorem parseLevels_eq_ok {items : List JsonValue} {kept : List (PyFloat × PyFloat)} :
    parseLevels py items = .ok kept ↔
      (∀ lvl ∈ items, lvl.IsDict) ∧ kept = items.filterMap (dictLevel py) := by
  induction items generalizing kept with
  | nil => simp [parseLevels, eq_comm]
  | cons lvl rest ih =>
    by_cases dict : lvl.IsDict
    · simp only [parseLevels, parseLevel_eq_ok.mpr ⟨dict, rfl⟩, List.forall_mem_cons, dict,
        true_and]
      rcases later : parseLevels py rest with e | rest'
      · have notAll : ¬ ∀ l ∈ rest, l.IsDict := fun all => by
          simpa [later] using ih.mpr ⟨all, rfl⟩
        simp [notAll]
      · obtain ⟨all, rfl⟩ := ih.mp later
        simp only [eq_true all, true_and]
        cases h : dictLevel py lvl <;> simp [List.filterMap_cons, h, eq_comm]
    · simp [parseLevels, parseLevel_of_not_dict dict, dict]

theorem sortLevels_perm (reverse : Bool) (levels : List (PyFloat × PyFloat)) :
    List.Perm (sortLevels reverse levels) levels := by
  unfold sortLevels
  split
  · exact (List.reverse_perm _).trans ((List.perm_insertionSort _ _).trans (List.reverse_perm _))
  · exact List.perm_insertionSort _ _

/-- Without a `nan` price, insertion by `priceNotAbove` sorts by price. -/
theorem insertionSort_sorted {levels : List (PyFloat × PyFloat)}
    (numbers : ∀ level ∈ levels, level.1 ≠ .nan) :
    (levels.insertionSort priceNotAbove).Pairwise fun a b => a.1.toExt ≤ b.1.toExt := by
  have agree : ∀ a ∈ levels, ∀ b ∈ levels, priceNotAbove a b ↔ a.1.toExt ≤ b.1.toExt :=
    fun a inA b inB => by
      rw [priceNotAbove, ← not_lt, ← PyFloat.lt_iff (numbers b inB) (numbers a inA)]
      simp
  have sorted := List.sorted_insertionSort (fun x y : WithBot (WithTop ℚ) => x ≤ y)
    (levels.map fun level => level.1.toExt)
  rw [← List.map_insertionSort priceNotAbove _ _ levels agree] at sorted
  exact List.pairwise_map.mp sorted

/-- **Without a `nan` price the bids come out best first and the asks cheapest first.** -/
theorem sortLevels_sorted {levels : List (PyFloat × PyFloat)}
    (numbers : ∀ level ∈ levels, level.1 ≠ .nan) :
    (sortLevels true levels).Pairwise (fun a b => b.1.toExt ≤ a.1.toExt) ∧
      (sortLevels false levels).Pairwise (fun a b => a.1.toExt ≤ b.1.toExt) := by
  refine ⟨?_, insertionSort_sorted numbers⟩
  simp only [sortLevels, if_true, List.pairwise_reverse]
  exact insertionSort_sorted fun level member => numbers level (List.mem_reverse.mp member)

/-- The first of a list sorted best first is at least each of its prices, in Python's `<=`. -/
theorem le_head_of_sorted {levels : List (PyFloat × PyFloat)} {best : PyFloat}
    (numbers : ∀ level ∈ levels, level.1 ≠ .nan)
    (sorted : levels.Pairwise fun a b => b.1.toExt ≤ a.1.toExt)
    (head : levels.head?.map Prod.fst = some best) : ∀ level ∈ levels, level.1.le best = true := by
  cases levels with
  | nil => simp at head
  | cons first rest =>
    simp only [List.head?_cons, Option.map_some', Option.some.injEq] at head
    subst head
    intro level member
    rw [PyFloat.le_iff (numbers level member) (numbers first (List.mem_cons_self _ _))]
    rcases List.mem_cons.mp member with rfl | later
    · exact le_rfl
    · exact List.rel_of_pairwise_cons sorted later

/-- The first of a list sorted cheapest first is at most each of its prices, in Python's `<=`. -/
theorem head_le_of_sorted {levels : List (PyFloat × PyFloat)} {best : PyFloat}
    (numbers : ∀ level ∈ levels, level.1 ≠ .nan)
    (sorted : levels.Pairwise fun a b => a.1.toExt ≤ b.1.toExt)
    (head : levels.head?.map Prod.fst = some best) : ∀ level ∈ levels, best.le level.1 = true := by
  cases levels with
  | nil => simp at head
  | cons first rest =>
    simp only [List.head?_cons, Option.map_some', Option.some.injEq] at head
    subst head
    intro level member
    rw [PyFloat.le_iff (numbers first (List.mem_cons_self _ _)) (numbers level member)]
    rcases List.mem_cons.mp member with rfl | later
    · exact le_rfl
    · exact List.rel_of_pairwise_cons sorted later

/-- **What an update stores.** The token's bids are the bid levels whose price and size parse
with `safe_float`, each as often as given and nothing else, and so are its asks; no other
token's book changes; and where no price of a side is `nan`, that side is ordered best first, so
`best_bid` is at least every bid and `best_ask` at most every ask. -/
theorem updateFromSnapshot_book {store store' : PyOrderBookStore} {tokenId : String}
    {bids asks : JsonValue}
    (result : store.updateFromSnapshot py tokenId bids asks = .ok store') :
    ∃ bidItems askItems, (bids.orElse (.arr [])).iter = .ok bidItems ∧
      (asks.orElse (.arr [])).iter = .ok askItems ∧
      List.Perm (store'.get tokenId).bids (bidItems.filterMap (dictLevel py)) ∧
      List.Perm (store'.get tokenId).asks (askItems.filterMap (dictLevel py)) ∧
      (∀ t, t ≠ tokenId → store'.get t = store.get t) ∧
      ((∀ level ∈ (store'.get tokenId).bids, level.1 ≠ .nan) →
        (store'.get tokenId).bids.Pairwise (fun a b => b.1.toExt ≤ a.1.toExt) ∧
        ∀ best, (store'.get tokenId).bestBid = some best →
          ∀ level ∈ (store'.get tokenId).bids, level.1.le best = true) ∧
      ((∀ level ∈ (store'.get tokenId).asks, level.1 ≠ .nan) →
        (store'.get tokenId).asks.Pairwise (fun a b => a.1.toExt ≤ b.1.toExt) ∧
        ∀ best, (store'.get tokenId).bestAsk = some best →
          ∀ level ∈ (store'.get tokenId).asks, best.le level.1 = true) := by
  simp only [PyOrderBookStore.updateFromSnapshot, except_bind_eq_ok, pure, Except.pure,
    Except.ok.injEq] at result
  obtain ⟨bidItems, bidIter, _, bidParse, askItems, askIter, _, askParse, rfl⟩ := result
  obtain ⟨-, rfl⟩ := parseLevels_eq_ok.mp bidParse
  obtain ⟨-, rfl⟩ := parseLevels_eq_ok.mp askParse
  have stored : PyOrderBookStore.get ⟨store.books.insert tokenId
        ⟨sortLevels true (bidItems.filterMap (dictLevel py)),
          sortLevels false (askItems.filterMap (dictLevel py))⟩⟩ tokenId =
      ⟨sortLevels true (bidItems.filterMap (dictLevel py)),
        sortLevels false (askItems.filterMap (dictLevel py))⟩ := by
    simp [PyOrderBookStore.get, Dict.getD_insert]
  refine ⟨bidItems, askItems, bidIter, askIter, ?_, ?_, fun t other => ?_, fun numbers => ?_,
    fun numbers => ?_⟩
  · rw [stored]; exact sortLevels_perm true _
  · rw [stored]; exact sortLevels_perm false _
  · simp [PyOrderBookStore.get, Dict.getD_insert, other]
  · rw [stored] at numbers ⊢
    have all : ∀ level ∈ bidItems.filterMap (dictLevel py), level.1 ≠ .nan :=
      fun level member => numbers level ((sortLevels_perm true _).mem_iff.mpr member)
    have sorted := (sortLevels_sorted all).1
    exact ⟨sorted, fun best head => le_head_of_sorted numbers sorted head⟩
  · rw [stored] at numbers ⊢
    have all : ∀ level ∈ askItems.filterMap (dictLevel py), level.1 ≠ .nan :=
      fun level member => numbers level ((sortLevels_perm false _).mem_iff.mpr member)
    have sorted := (sortLevels_sorted all).2
    exact ⟨sorted, fun best head => head_le_of_sorted numbers sorted head⟩

/-- **An update raises exactly when a side is not iterable or holds a level that is not a dict**;
a level whose price or size does not parse is only dropped. -/
theorem updateFromSnapshot_ok_iff {store : PyOrderBookStore} {tokenId : String}
    {bids asks : JsonValue} :
    (∃ store', store.updateFromSnapshot py tokenId bids asks = .ok store') ↔
      (∃ items, (bids.orElse (.arr [])).iter = .ok items ∧ ∀ lvl ∈ items, lvl.IsDict) ∧
        ∃ items, (asks.orElse (.arr [])).iter = .ok items ∧ ∀ lvl ∈ items, lvl.IsDict := by
  simp only [PyOrderBookStore.updateFromSnapshot, except_bind_eq_ok, pure, Except.pure,
    Except.ok.injEq]
  constructor
  · rintro ⟨-, bidItems, bidIter, _, bidParse, askItems, askIter, _, askParse, -⟩
    exact ⟨⟨bidItems, bidIter, (parseLevels_eq_ok.mp bidParse).1⟩, askItems, askIter,
      (parseLevels_eq_ok.mp askParse).1⟩
  · rintro ⟨⟨bidItems, bidIter, bidDicts⟩, askItems, askIter, askDicts⟩
    exact ⟨_, bidItems, bidIter, _, parseLevels_eq_ok.mpr ⟨bidDicts, rfl⟩, askItems, askIter, _,
      parseLevels_eq_ok.mpr ⟨askDicts, rfl⟩, rfl⟩

/-! ### A batch of the REST poller -/

/-- **A batch is stored item by item until an item raises**: either every item is stored in
order, or the store is the one the items before the first raising item left, with that item's
exception, and the items after it are never read. -/
theorem restPollItems_eq (store : PyOrderBookStore) (items : List JsonValue) :
    (items.foldlM (restPollItem py) store = .ok (restPollItems py store items).1 ∧
        (restPollItems py store items).2 = none) ∨
      ∃ before item after e, items = before ++ item :: after ∧
        before.foldlM (restPollItem py) store = .ok (restPollItems py store items).1 ∧
        restPollItem py (restPollItems py store items).1 item = .error e ∧
        (restPollItems py store items).2 = some e := by
  induction items generalizing store with
  | nil => exact .inl ⟨rfl, rfl⟩
  | cons item rest ih =>
    cases stored : restPollItem py store item with
    | error e =>
      simp only [restPollItems, stored]
      exact .inr ⟨[], item, rest, e, rfl, rfl, stored, rfl⟩
    | ok store' =>
      simp only [restPollItems, stored, List.foldlM_cons, except_bind_eq_ok]
      rcases ih store' with ⟨folded, none⟩ | ⟨before, failing, after, e, rfl, folded, raised, some⟩
      · exact .inl ⟨⟨store', rfl, folded⟩, none⟩
      · refine .inr ⟨item :: before, failing, after, e, rfl, ?_, raised, some⟩
        simpa only [List.foldlM_cons, except_bind_eq_ok] using ⟨store', stored, folded⟩

/-! ### The engine's view -/

/-- A level with a finite price and size. -/
def finiteLevel (level : PyFloat × PyFloat) : Option (ℚ × ℚ) :=
  match level.1.toRat?, level.2.toRat? with
  | some price, some size => some (price, size)
  | _, _ => none

/-- The book the engine reads: the same levels, when every price and size is finite. -/
def PyOrderBook.toOrderBook? (ob : PyOrderBook) : Option OrderBook :=
  match ob.bids.mapM finiteLevel, ob.asks.mapM finiteLevel with
  | some bids, some asks => some { bids := bids, asks := asks }
  | _, _ => none

theorem eq_map_of_mapM_finiteLevel : ∀ {levels : List (PyFloat × PyFloat)} {values : List (ℚ × ℚ)},
    levels.mapM finiteLevel = some values →
      levels = values.map fun value => (.finite value.1, .finite value.2)
  | [], values, converted => by
    simp only [List.mapM_nil, pure, Option.some.injEq] at converted
    simp [← converted]
  | ⟨price, size⟩ :: rest, values, converted => by
    simp only [List.mapM_cons, bind, Option.bind_eq_some, pure, Option.some.injEq] at converted
    obtain ⟨value, level, values', later, rfl⟩ := converted
    cases price <;> cases size <;>
      simp only [finiteLevel, PyFloat.toRat?, reduceCtorEq, Option.some.injEq] at level
    subst level
    simp [eq_map_of_mapM_finiteLevel later]

/-- A finite ladder holds no `nan`, and sorted on the extended line it is sorted by price. -/
theorem sorted_of_mapM_finiteLevel {levels : List (PyFloat × PyFloat)} {values : List (ℚ × ℚ)}
    (converted : levels.mapM finiteLevel = some values) :
    (∀ level ∈ levels, level.1 ≠ .nan) ∧
      ((levels.Pairwise fun a b => a.1.toExt ≤ b.1.toExt) → values.Pairwise fun a b => a.1 ≤ b.1) ∧
      ((levels.Pairwise fun a b => b.1.toExt ≤ a.1.toExt) → values.Pairwise fun a b => b.1 ≤ a.1) := by
  obtain rfl := eq_map_of_mapM_finiteLevel converted
  refine ⟨fun level member => ?_, by simp [List.pairwise_map, PyFloat.toExt],
    by simp [List.pairwise_map, PyFloat.toExt]⟩
  obtain ⟨value, -, rfl⟩ := List.mem_map.mp member
  simp

end Stored

/-! ### Where the feed's data breaks the update -/

/-- **A `nan` price parses, and then the bids are out of order.** `safe_float` accepts a `NaN`
price; the descending sort leaves it in front of the bid at `0.5`, so `best_bid` is `nan`, and
`best_bid >= 0.5` is false. -/
theorem update_from_snapshot_nan_unordered (py : PyBuiltins) :
    ∃ store', (⟨Dict.empty⟩ : PyOrderBookStore).updateFromSnapshot py "U"
        (.arr [.obj [("price", .num .nan), ("size", .num (.finite 1))],
          .obj [("price", .num (.finite 0.5)), ("size", .num (.finite 1))]]) (.arr []) =
        .ok store' ∧
      (store'.get "U").bids = [(.nan, .finite 1), (.finite 0.5, .finite 1)] ∧
      (store'.get "U").bestBid = some .nan ∧ (PyFloat.finite 0.5).le .nan = false :=
  ⟨_, rfl, rfl, rfl, rfl⟩

/-- **A level that is not a dict drops more than itself.** A `null` among `UP`'s bids raises out
of `update_from_snapshot`: in a REST batch the `DOWN` item after it, which stored on its own, is
lost with the rest of the batch, and a stream message with a good bid after the `null` raises out
of `on_message` with nothing stored. -/
theorem malformed_level_drops_batch (py : PyBuiltins) :
    let level : JsonValue := .obj [("price", .num (.finite 0.5)), ("size", .num (.finite 1))]
    let good : JsonValue := .obj [("asset_id", .str "D"), ("bids", .arr [level])]
    let bad : JsonValue := .obj [("asset_id", .str "U"), ("bids", .arr [.null, level])]
    ((restPollBatch py ⟨Dict.empty⟩ (some (.arr [good]))).1.get "D").bids =
        [(.finite 0.5, .finite 1)] ∧
      restPollBatch py ⟨Dict.empty⟩ (some (.arr [bad, good])) = (⟨Dict.empty⟩, some .attributeError) ∧
      onMessage py ⟨Dict.empty⟩
          (some (.obj [("event_type", .str "book"), ("asset_id", .str "U"),
            ("bids", .arr [.null, level])])) = .error .attributeError :=
  ⟨rfl, rfl, rfl⟩

end PaperTrader
