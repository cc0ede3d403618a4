/-
**`save_state` and `load_state`: the state file.**

`save_state` writes `{"accounts": {sym: acct.to_dict()}, "meta": meta, "saved_at": ...}` with
`json.dump` into the state file, opened in truncating mode, and swallows any exception;
`load_state` reads it back through `PaperAccount.from_dict`, starting from fresh balances and
keeping what it has read when an exception stops it. The file is modelled at the level of the
values `json.dump` writes and `json.load` returns (`StateFile`): a completed dump is read back as
the value dumped, and a dump interrupted after `open` leaves a proper prefix of the document's
text, on which `json.load` raises. Loaded values are Python floats (`PyPaperAccount`).

* `fromDict_toDict` — `from_dict` reads back what `to_dict` writes;
* `loadAccounts_get?` — the loop over `cfg.symbols` replaces an account exactly where the blob has
  one that parses;
* `loadState_keys` — whatever the file holds, the accounts returned are keyed by exactly
  `cfg.symbols`, so `main`'s lookup of a configured symbol's account finds one;
* `PyPaperAccount.toAccount?`, `PaperAccount.toPy_toAccount?` — the loaded floats as the engine's
  values, when every one of them is finite, and back;
* `loadState_saveState` — a completed save loads back: the same account for every symbol, with the
  same cash and positions, and the same meta;
* `saveStates_of_openFails`, `saveStates_last_opened` — over a run of saves, the file is the one
  the last save to open it left;
* `loadState_saveStates` — so what the next load returns is decided by that save alone: what it
  wrote if its dump completed, fresh balances and an empty meta if its dump failed, and the file
  from before if no save opened it;
* `failed_save_loses_state` — a save that fails after a completed one makes the next load start
  from `100.0` with an empty meta.
-/

import PaperTrader.Data.Types
import PaperTrader.Data.Json

namespace PaperTrader

/-- A `Position` as `from_dict` reads it: Python floats. -/
structure PyPosition where
  shares : PyFloat
  costUsd : PyFloat
  deriving DecidableEq, Repr

/-- A `PaperAccount` as `load_state` returns it. -/
structure PyPaperAccount where
  symbol : String
  cash : PyFloat
  positions : Dict PyPosition
  deriving DecidableEq

/-- The accounts `load_state` starts from without a state file: one per symbol, with its
starting balance, `100.0` when it has none. -/
def freshAccounts (symbols : List String) (startBalances : Dict ℚ) : Dict PaperAccount :=
  symbols.foldl (fun accounts sym =>
    accounts.insert sym ⟨sym, startBalances.getD sym 100.0, Dict.empty⟩) Dict.empty

/-- A position of the engine, as the float values Python holds. -/
def Position.toPy (pos : Position) : PyPosition := ⟨.finite pos.shares, .finite pos.costUsd⟩

/-- An account of the engine, as the float values Python holds. -/
def PaperAccount.toPy (acct : PaperAccount) : PyPaperAccount :=
  ⟨acct.symbol, .finite acct.cash, acct.positions.map Position.toPy⟩

/-- A loaded position as the engine's, when both its floats are finite. -/
def PyPosition.toPosition? (pos : PyPosition) : Option Position :=
  match pos.shares.toRat?, pos.costUsd.toRat? with
  | some shares, some costUsd => some ⟨shares, costUsd⟩
  | _, _ => none

/-- A loaded account as the engine's, when all its floats are finite: the engine's accounts hold
rationals, so a run from an account with a `nan` or an infinite float is not one this development
models. -/
def PyPaperAccount.toAccount? (acct : PyPaperAccount) : Option PaperAccount :=
  match acct.cash.toRat?, acct.positions.traverse PyPosition.toPosition? with
  | some cash, some positions => some ⟨acct.symbol, cash, positions⟩
  | _, _ => none

/-- The engine's accounts read back from their floats. -/
@[simp] theorem PaperAccount.toPy_toAccount? (acct : PaperAccount) : acct.toPy.toAccount? = some acct := by
  simp [PyPaperAccount.toAccount?, PaperAccount.toPy, PyFloat.toRat?,
    Dict.traverse_map Position.toPy PyPosition.toPosition? (fun pos => pos)
      (fun _ => rfl) acct.positions]

/-! ### The document -/

/-- `asdict(pos)`. -/
def Position.asdict (pos : Position) : JsonValue :=
  .obj [("shares", .num (.finite pos.shares)), ("cost_usd", .num (.finite pos.costUsd))]

/-- `PaperAccount.to_dict()`. -/
def PaperAccount.toDict (acct : PaperAccount) : JsonValue :=
  .obj [("symbol", .str acct.symbol), ("cash", .num (.finite acct.cash)),
    ("positions", .obj (acct.positions.entries.map fun entry => (entry.1, entry.2.asdict)))]

/-- The document `save_state` dumps. -/
def stateDoc (accounts : Dict PaperAccount) (meta : JsonValue) (savedAt : String) : JsonValue :=
  .obj [("accounts", .obj (accounts.entries.map fun entry => (entry.1, entry.2.toDict))),
    ("meta", meta), ("saved_at", .str savedAt)]

/-- What the state file holds, as `json.load` would read it. -/
inductive StateFile
  /-- No file at `cfg.state_path`. -/
  | missing
  /-- A completed `json.dump` of `doc`. -/
  | written (doc : JsonValue)
  /-- What a `json.dump` interrupted after `open(..., "w")` leaves: a proper prefix of the
  document's text, empty included, which `json.load` rejects. -/
  | truncated

/-- How a `save_state` call ends. -/
inductive SaveOutcome
  | completes
  /-- `open` raises: the file is not touched. -/
  | openFails
  /-- A write of `json.dump` raises, after `open` has truncated the file. -/
  | writeFails
  deriving DecidableEq, Repr

/-- `save_state(cfg, accounts, meta)`: the file it leaves, the exception swallowed. -/
def saveState (outcome : SaveOutcome) (file : StateFile) (accounts : Dict PaperAccount)
    (meta : JsonValue) (savedAt : String) : StateFile :=
  match outcome with
  | .completes => .written (stateDoc accounts meta savedAt)
  | .openFails => file
  | .writeFails => .truncated

/-! ### Loading -/

section Load

variable (py : PyBuiltins)

/-- The loop of `from_dict` over `pos.items()`: each position read with `v.get("shares", 0.0)`
and `v.get("cost_usd", 0.0)` through `float()` and stored under `str(k)`, which for the keys of
a JSON object is `k`; the first exception ends it. -/
def loadPositions : List (String × JsonValue) → Dict PyPosition → Except PyError (Dict PyPosition)
  | [], positions => .ok positions
  | (k, v) :: rest, positions => do
    let shares ← pyFloat py (← v.getD "shares" (.num (.finite 0.0)))
    let costUsd ← pyFloat py (← v.getD "cost_usd" (.num (.finite 0.0)))
    loadPositions rest (positions.insert k ⟨shares, costUsd⟩)

/-- `PaperAccount.from_dict(cfg, d, default_symbol, default_balance)`. -/
def fromDict (d : JsonValue) (defaultSymbol : String) (defaultBalance : ℚ) :
    Except PyError PyPaperAccount := do
  let sym := py.str ((← d.get "symbol").orElse (.str defaultSymbol))
  let cash ← pyFloat py (← d.getD "cash" (.num (.finite defaultBalance)))
  let pos := (← d.getD "positions" (.obj [])).orElse (.obj [])
  let positions ← loadPositions py (← pos.items) Dict.empty
  pure ⟨sym, cash, positions⟩

/-- The loop of `load_state` over `cfg.symbols`: a symbol found in the blob gets the account
`from_dict` reads; an exception ends the loop with the accounts replaced so far. -/
def loadAccounts (startBalances : Dict ℚ) (blob : List (String × JsonValue)) :
    List String → Dict PyPaperAccount → Dict PyPaperAccount
  | [], accounts => accounts
  | sym :: rest, accounts =>
    match blob.lookup sym with
    | none => loadAccounts startBalances blob rest accounts
    | some v =>
      match fromDict py v sym (startBalances.getD sym 100.0) with
      | .ok acct => loadAccounts startBalances blob rest (accounts.insert sym acct)
      | .error _ => accounts

/-- `load_state(cfg, start_balances)`: the accounts and meta it returns. Without a file, or when
`json.load` or `d.get("meta", {})` raises, the fresh accounts and `{}`; otherwise the meta read
and the accounts of `loadAccounts`, when `d.get("accounts")` is a dict. -/
def loadState (cfg : StrategyConfig) (startBalances : Dict ℚ) :
    StateFile → Dict PyPaperAccount × JsonValue
  | .missing => ((freshAccounts cfg.symbols startBalances).map PaperAccount.toPy, .obj [])
  | .truncated => ((freshAccounts cfg.symbols startBalances).map PaperAccount.toPy, .obj [])
  | .written d =>
    let fresh := (freshAccounts cfg.symbols startBalances).map PaperAccount.toPy
    match d.getD "meta" (.obj []) with
    | .error _ => (fresh, .obj [])
    | .ok meta =>
      match d.get "accounts" with
      | .ok (.obj blob) => (loadAccounts py startBalances blob cfg.symbols fresh, meta.orElse (.obj []))
      | _ => (fresh, meta.orElse (.obj []))

end Load

/-! ### A completed save loads back -/

section RoundTrip

variable {py : PyBuiltins}

/-- A JSON object built from a dict's entries finds what the dict finds. -/
theorem lookup_map_entries {α : Type} (f : α → JsonValue) (entries : List (String × α))
    (key : String) :
    (entries.map fun entry => (entry.1, f entry.2)).lookup key =
      (Dict.lookupEntry key entries).map f := by
  induction entries with
  | nil => rfl
  | cons entry rest ih =>
    obtain ⟨k, v⟩ := entry
    by_cases same : k = key
    · simp [Dict.lookupEntry, same]
    · have differ : (key == k) = false := beq_eq_false_iff_ne.mpr (Ne.symm same)
      simp [List.lookup_cons, Dict.lookupEntry, same, differ, ih]

/-- **The positions `to_dict` writes are read back in order**, after those already read. -/
theorem loadPositions_asdict (positions : Dict PyPosition) :
    ∀ {entries : List (String × Position)}, (entries.map Prod.fst).Nodup →
      (∀ key ∈ entries.map Prod.fst, key ∉ positions.entries.map Prod.fst) →
      ∃ loaded, loadPositions py (entries.map fun entry => (entry.1, entry.2.asdict)) positions =
          .ok loaded ∧
        loaded.entries = positions.entries ++ entries.map fun entry => (entry.1, entry.2.toPy)
  | [], _, _ => ⟨positions, rfl, by simp⟩
  | (k, pos) :: rest, nodup, fresh => by
    simp only [List.map_cons, List.nodup_cons, List.mem_cons, forall_eq_or_imp] at nodup fresh
    have grown := Dict.insert_entries_of_not_mem (pos.toPy) fresh.1
    obtain ⟨loaded, read, entries⟩ := loadPositions_asdict (positions.insert k pos.toPy) nodup.2
      (fun key member => by
        rw [grown]
        simp only [List.map_append, List.map_cons, List.map_nil, List.mem_append,
          List.mem_singleton, not_or]
        exact ⟨fresh.2 key member, fun same => nodup.1 (same ▸ member)⟩)
    refine ⟨loaded, ?_, by simp [entries, grown]⟩
    simpa [loadPositions, Position.asdict, JsonValue.getD, List.lookup_cons, pyFloat] using read

/-- **`from_dict` reads back what `to_dict` writes**, given the account's own symbol as default. -/
theorem fromDict_toDict (acct : PaperAccount) (defaultBalance : ℚ) :
    fromDict py acct.toDict acct.symbol defaultBalance = .ok acct.toPy := by
  obtain ⟨loaded, read, entries⟩ := @loadPositions_asdict py Dict.empty _ acct.positions.nodupKeys
    (by simp [Dict.empty])
  have same : loaded = acct.positions.map Position.toPy := Dict.ext (by simpa [Dict.map] using entries)
  simp [fromDict, PaperAccount.toDict, JsonValue.get, JsonValue.getD, JsonValue.items,
    List.lookup_cons, pyFloat, PyBuiltins.str, read, same, PaperAccount.toPy, pure, Except.pure,
    bind, Except.bind]

/-- **The loop of `load_state` replaces an account exactly where the blob has one that parses**:
when each symbol of the loop finds a dict that `from_dict` reads, every symbol of the loop gets
it and every other key keeps its account. -/
theorem loadAccounts_get? {startBalances : Dict ℚ} {blob : List (String × JsonValue)}
    {loaded : String → PyPaperAccount} :
    ∀ {symbols : List String} {accounts : Dict PyPaperAccount},
      (∀ sym ∈ symbols, ∃ v, blob.lookup sym = some v ∧
        fromDict py v sym (startBalances.getD sym 100.0) = .ok (loaded sym)) →
      ∀ key, (loadAccounts py startBalances blob symbols accounts).get? key =
        if key ∈ symbols then some (loaded key) else accounts.get? key
  | [], accounts, _, key => by simp [loadAccounts]
  | sym :: rest, accounts, parses, key => by
    obtain ⟨v, found, read⟩ := parses sym (List.mem_cons_self _ _)
    simp only [loadAccounts, found, read]
    rw [loadAccounts_get? (fun s member => parses s (List.mem_cons_of_mem _ member)),
      Dict.get?_insert]
    by_cases later : key ∈ rest
    · simp [later]
    · by_cases same : sym = key
      · simp [later, same]
      · simp [later, same, Ne.symm same]

/-- Without a saved account, a symbol of `cfg.symbols` gets its starting balance, `100.0` when
it has none, and no other key gets an account. -/
theorem freshAccounts_get? (symbols : List String) (startBalances : Dict ℚ) (key : String) :
    (freshAccounts symbols startBalances).get? key =
      if key ∈ symbols then some ⟨key, startBalances.getD key 100.0, Dict.empty⟩ else none := by
  suffices general : ∀ init : Dict PaperAccount, (symbols.foldl (fun accounts sym =>
      accounts.insert sym ⟨sym, startBalances.getD sym 100.0, Dict.empty⟩) init).get? key =
      if key ∈ symbols then some ⟨key, startBalances.getD key 100.0, Dict.empty⟩
      else init.get? key from general Dict.empty
  induction symbols with
  | nil => simp
  | cons sym rest ih =>
    intro init
    rw [List.foldl_cons, ih, Dict.get?_insert]
    by_cases later : key ∈ rest
    · simp [later]
    · by_cases same : sym = key
      · subst same; simp
      · simp [later, same, Ne.symm same]

/-- The loop of `load_state` assigns only its own symbols: from accounts for all of them, the
keys with an account are those there were. -/
theorem loadAccounts_isSome {startBalances : Dict ℚ} {blob : List (String × JsonValue)} :
    ∀ {symbols : List String} {accounts : Dict PyPaperAccount},
      (∀ sym ∈ symbols, (accounts.get? sym).isSome) → ∀ key,
        ((loadAccounts py startBalances blob symbols accounts).get? key).isSome =
          (accounts.get? key).isSome
  | [], _, _, _ => rfl
  | sym :: rest, accounts, present, key => by
    have later : ∀ s ∈ rest, (accounts.get? s).isSome := fun s member =>
      present s (List.mem_cons_of_mem _ member)
    simp only [loadAccounts]
    split
    · exact loadAccounts_isSome later key
    · split
      · next acct _ =>
        have kept : ∀ s, ((accounts.insert sym acct).get? s).isSome = (accounts.get? s).isSome := by
          intro s
          rw [Dict.get?_insert]
          split
          · next same => exact (same ▸ present sym (List.mem_cons_self _ _)).symm
          · rfl
        rw [loadAccounts_isSome (fun s member => (kept s).trans (later s member)) key, kept]
      · rfl

/-- **`load_state` returns an account for exactly the configured symbols**, whatever the state
file holds: missing, truncated, or any document, with accounts or not, and with blobs that
`from_dict` reads or that stop the loop. -/
theorem loadState_keys (cfg : StrategyConfig) (startBalances : Dict ℚ) (file : StateFile)
    (key : String) :
    (∃ acct, (loadState py cfg startBalances file).1.get? key = some acct) ↔ key ∈ cfg.symbols := by
  have fresh : ∀ key, (((freshAccounts cfg.symbols startBalances).map PaperAccount.toPy).get?
      key).isSome = decide (key ∈ cfg.symbols) := fun key => by
    rw [Dict.get?_map, freshAccounts_get?]
    split <;> simp [*]
  have loaded : ((loadState py cfg startBalances file).1.get? key).isSome = decide (key ∈ cfg.symbols) := by
    cases file with
    | written doc =>
      simp only [loadState]
      split
      · exact fresh key
      · split
        · rw [loadAccounts_isSome (fun s member => by simp [fresh, member]), fresh]
        · exact fresh key
    | _ => exact fresh key
  rw [← Option.isSome_iff_exists, loaded, decide_eq_true_iff]

/-- A completed save is read as its accounts blob, through the loop over `cfg.symbols` from the
fresh accounts, and its meta. -/
theorem loadState_stateDoc (cfg : StrategyConfig) (startBalances : Dict ℚ)
    (accounts : Dict PaperAccount) (meta : JsonValue) (savedAt : String) :
    loadState py cfg startBalances (.written (stateDoc accounts meta savedAt)) =
      (loadAccounts py startBalances (accounts.entries.map fun entry => (entry.1, entry.2.toDict))
        cfg.symbols ((freshAccounts cfg.symbols startBalances).map PaperAccount.toPy),
        meta.orElse (.obj [])) := rfl

/-- A completed save is read back: each saved account under its symbol and nothing under any
other key, and the meta saved. -/
theorem loadState_written (cfg : StrategyConfig) (startBalances : Dict ℚ)
    (accounts : Dict PaperAccount) (meta : List (String × JsonValue)) (savedAt : String)
    (keyed : ∀ sym, sym ∈ accounts.entries.map Prod.fst ↔ sym ∈ cfg.symbols)
    (named : ∀ entry ∈ accounts.entries, entry.2.symbol = entry.1) :
    (∀ sym, (loadState py cfg startBalances (.written (stateDoc accounts (.obj meta) savedAt))).1.get?
        sym = (accounts.get? sym).map PaperAccount.toPy) ∧
      (loadState py cfg startBalances (.written (stateDoc accounts (.obj meta) savedAt))).2 =
        .obj meta := by
  have saved : ∀ sym ∈ cfg.symbols, ∃ acct, accounts.get? sym = some acct ∧ acct.symbol = sym :=
    fun sym member => by
      obtain ⟨acct, found, present⟩ := Dict.exists_get?_of_mem ((keyed sym).mpr member)
      exact ⟨acct, found, named _ present⟩
  have parses : ∀ sym ∈ cfg.symbols, ∃ v,
      (accounts.entries.map fun entry => (entry.1, entry.2.toDict)).lookup sym = some v ∧
        fromDict py v sym (startBalances.getD sym 100.0) =
          .ok (accounts.getD sym ⟨sym, 0, Dict.empty⟩).toPy := fun sym member => by
    obtain ⟨acct, found, rfl⟩ := saved sym member
    refine ⟨acct.toDict, ?_, ?_⟩
    · rw [lookup_map_entries]
      exact congrArg (Option.map _) found
    · simpa [Dict.getD, found] using fromDict_toDict acct _
  rw [loadState_stateDoc]
  refine ⟨fun sym => ?_, JsonValue.obj_orElse_empty meta⟩
  rw [loadAccounts_get? parses, Dict.get?_map, freshAccounts_get?]
  by_cases member : sym ∈ cfg.symbols
  · obtain ⟨acct, found, -⟩ := saved sym member
    simp [member, found, Dict.getD]
  · simp [member, Dict.get?_eq_none_of_not_mem (mt (keyed sym).mp member)]

/-- **A completed save loads back.** For accounts keyed by exactly the symbols of `cfg.symbols`,
each account named by its key, and any meta dict, `load_state` after a `save_state` that
completes returns each saved account, with its cash and positions, under its symbol and nothing
under any other key, and returns the meta saved. -/
theorem loadState_saveState (cfg : StrategyConfig) (startBalances : Dict ℚ) (file : StateFile)
    (accounts : Dict PaperAccount) (meta : List (String × JsonValue)) (savedAt : String)
    (keyed : ∀ sym, sym ∈ accounts.entries.map Prod.fst ↔ sym ∈ cfg.symbols)
    (named : ∀ entry ∈ accounts.entries, entry.2.symbol = entry.1) :
    (∀ sym, (loadState py cfg startBalances
        (saveState .completes file accounts (.obj meta) savedAt)).1.get? sym =
        (accounts.get? sym).map PaperAccount.toPy) ∧
      (loadState py cfg startBalances (saveState .completes file accounts (.obj meta) savedAt)).2 =
        .obj meta :=
  loadState_written cfg startBalances accounts meta savedAt keyed named

end RoundTrip

/-- `main`'s accounts after a `BTC` market: 50 in cash and a position in `U`, the other symbols
at their starting balance. -/
def savedAccounts : Dict PaperAccount :=
  (freshAccounts StrategyConfig.default.symbols Dict.empty).insert "BTC"
    ⟨"BTC", 50, Dict.empty.insert "U" ⟨10, 3⟩⟩

theorem loadState_saveState_default :
    (∀ sym, sym ∈ savedAccounts.entries.map Prod.fst ↔ sym ∈ StrategyConfig.default.symbols) ∧
      (∀ entry ∈ savedAccounts.entries, entry.2.symbol = entry.1) ∧
      (∀ sym, (loadState ⟨fun _ => none, fun _ => ""⟩ StrategyConfig.default Dict.empty
          (saveState .completes .missing savedAccounts
            (.obj [("last_settled", .str "btc-updown-15m-1")]) "t0")).1.get? sym =
        (savedAccounts.get? sym).map PaperAccount.toPy) ∧
      (loadState ⟨fun _ => none, fun _ => ""⟩ StrategyConfig.default Dict.empty
          (saveState .completes .missing savedAccounts
            (.obj [("last_settled", .str "btc-updown-15m-1")]) "t0")).2 =
        .obj [("last_settled", .str "btc-updown-15m-1")] := by
  have keyed : ∀ sym, sym ∈ savedAccounts.entries.map Prod.fst ↔
      sym ∈ StrategyConfig.default.symbols := fun _ => Iff.rfl
  have named : ∀ entry ∈ savedAccounts.entries, entry.2.symbol = entry.1 := by decide
  exact ⟨keyed, named, loadState_saveState StrategyConfig.default Dict.empty .missing savedAccounts _
    "t0" keyed named⟩

/-! ### A run of saves -/

/-- One call of `save_state`: how it ends, and the accounts, meta and `saved_at` it writes. -/
structure SaveCall where
  outcome : SaveOutcome
  accounts : Dict PaperAccount
  meta : JsonValue
  savedAt : String

/-- The file after a run's calls of `save_state`, in order. -/
def saveStates (file : StateFile) (calls : List SaveCall) : StateFile :=
  calls.foldl (fun file call => saveState call.outcome file call.accounts call.meta call.savedAt)
    file

/-- Saves whose `open` fails leave the file as it was. -/
theorem saveStates_of_openFails (calls : List SaveCall)
    (failed : ∀ call ∈ calls, call.outcome = .openFails) (file : StateFile) :
    saveStates file calls = file := by
  induction calls generalizing file with
  | nil => rfl
  | cons call rest ih =>
    simp only [List.forall_mem_cons] at failed
    simp only [saveStates, List.foldl_cons, failed.1, saveState] at ih ⊢
    exact ih failed.2 file

/-- **The file after a run of saves is the one the last save to open it left**: the document of
that save if it completed, a truncated file if its write failed. -/
theorem saveStates_last_opened (file : StateFile) (before : List SaveCall) (call : SaveCall)
    (after : List SaveCall) (failed : ∀ later ∈ after, later.outcome = .openFails) :
    saveStates file (before ++ call :: after) =
      saveState call.outcome (saveStates file before) call.accounts call.meta call.savedAt := by
  rw [saveStates, List.foldl_append, List.foldl_cons]
  exact saveStates_of_openFails after failed _

/-- **What a run of saves leaves for `load_state`.** The last save to open the state file decides
it. After one that completed, `load_state` returns the accounts and meta it wrote, for accounts
keyed by exactly `cfg.symbols`, each named by its key, and a meta dict. After one whose write
raised, it returns the fresh starting balances and an empty meta: `open` in `"w"` mode truncated
the file in place, so that save lost every save before it. Saves whose `open` raised leave what
was there. -/
theorem loadState_saveStates (py : PyBuiltins) (cfg : StrategyConfig) (startBalances : Dict ℚ)
    (file : StateFile) (before : List SaveCall) (call : SaveCall) (after : List SaveCall)
    (failed : ∀ later ∈ after, later.outcome = .openFails)
    (keyed : ∀ sym, sym ∈ call.accounts.entries.map Prod.fst ↔ sym ∈ cfg.symbols)
    (named : ∀ entry ∈ call.accounts.entries, entry.2.symbol = entry.1)
    {meta : List (String × JsonValue)} (dict : call.meta = .obj meta) :
    (call.outcome = .completes →
      (∀ sym, (loadState py cfg startBalances (saveStates file (before ++ call :: after))).1.get? sym =
          (call.accounts.get? sym).map PaperAccount.toPy) ∧
        (loadState py cfg startBalances (saveStates file (before ++ call :: after))).2 = call.meta) ∧
    (call.outcome = .writeFails →
      loadState py cfg startBalances (saveStates file (before ++ call :: after)) =
        loadState py cfg startBalances .missing) ∧
    (call.outcome = .openFails →
      loadState py cfg startBalances (saveStates file (before ++ call :: after)) =
        loadState py cfg startBalances (saveStates file before)) := by
  rw [saveStates_last_opened file before call after failed, dict]
  refine ⟨fun completed => ?_, fun writeFailed => ?_, fun openFailed => ?_⟩
  · rw [completed]
    exact loadState_written cfg startBalances call.accounts meta call.savedAt keyed named
  · rw [writeFailed]
    rfl
  · rw [openFailed]
    rfl

/-- A completed save and then one whose write raises: the second decides the load. -/
theorem loadState_saveStates_write_failed :
    (∀ later ∈ ([] : List SaveCall), later.outcome = .openFails) ∧
      (∀ sym, sym ∈ savedAccounts.entries.map Prod.fst ↔ sym ∈ StrategyConfig.default.symbols) ∧
      (∀ entry ∈ savedAccounts.entries, entry.2.symbol = entry.1) ∧
      loadState ⟨fun _ => none, fun _ => ""⟩ StrategyConfig.default Dict.empty
          (saveStates .missing
            ([⟨.completes, savedAccounts, .obj [("last_settled", .str "btc-updown-15m-1")], "t0"⟩] ++
              [⟨.writeFails, savedAccounts, .obj [("last_settled", .str "btc-updown-15m-1")], "t1"⟩])) =
        loadState ⟨fun _ => none, fun _ => ""⟩ StrategyConfig.default Dict.empty .missing := by
  have keyed : ∀ sym, sym ∈ savedAccounts.entries.map Prod.fst ↔
      sym ∈ StrategyConfig.default.symbols := fun _ => Iff.rfl
  have named : ∀ entry ∈ savedAccounts.entries, entry.2.symbol = entry.1 := by decide
  exact ⟨fun _ absent => absurd absent (List.not_mem_nil _), keyed, named,
    (loadState_saveStates ⟨fun _ => none, fun _ => ""⟩ StrategyConfig.default Dict.empty .missing
      [⟨.completes, savedAccounts, .obj [("last_settled", .str "btc-updown-15m-1")], "t0"⟩]
      ⟨.writeFails, savedAccounts, .obj [("last_settled", .str "btc-updown-15m-1")], "t1"⟩ []
      (fun _ absent => absurd absent (List.not_mem_nil _)) keyed named rfl).2.1 rfl⟩

/-- **A failed save makes the next load start over.** A completed save of 50 in `BTC`'s cash and
a meta is read back as saved; after a second save whose write fails, `load_state` returns
`BTC` at its starting `100.0` and an empty meta. What `save_state` writes holds no string that
`float()` reads, so the builtins here parse none. -/
theorem failed_save_loses_state :
    let py : PyBuiltins := ⟨fun _ => none, fun _ => ""⟩
    let meta : JsonValue := .obj [("last_settled", .str "btc-updown-15m-1")]
    let saved := saveState .completes .missing savedAccounts meta "t0"
    let failed := saveState .writeFails saved savedAccounts meta "t1"
    ((loadState py StrategyConfig.default Dict.empty saved).1.get? "BTC").map PyPaperAccount.cash =
        some (.finite 50) ∧
      (loadState py StrategyConfig.default Dict.empty saved).2 = meta ∧
      (loadState py StrategyConfig.default Dict.empty failed).1.get? "BTC" =
        some ⟨"BTC", .finite 100.0, Dict.empty⟩ ∧
      (loadState py StrategyConfig.default Dict.empty failed).2 = .obj [] :=
  ⟨rfl, rfl, rfl, rfl⟩

end PaperTrader
