/-
**`discover_next_market`: the market the driver binds.**

The Gamma listing is an input (`none` when `gamma_list_markets` raises, which the function
catches), and so is `gamma_get_market_by_slug`. The function keeps the listed markets that pass
its filters (`toCandidate`, looped over by `collectCandidates`) and picks one by a stable sort
(`firstMinBy`). Three things raise out of it, and out of `main`, which calls it outside any `try`:
`m.get` on a listed item that is not a dict, `gamma_get_market_by_slug` (its `requests.get`, or
`.get` on a truthy result that is not a dict), and comparing a naive end time with the aware
`utcnow()`.

* `firstMinBy_spec` — the pick is a member with the least key, after only larger keys;
* `discoverNextMarket_listed` — the pick is of a configured symbol, and of `only_symbol` when that
  is set (`Listed`);
* `discoverNextMarket_spec` — when it returns a market, every candidate's end time is aware and
  the pick is a candidate: the earliest ending at or after `now` when there is one, and otherwise
  the one ending nearest to `now`, so a market that has already ended can be picked.
-/

import PaperTrader.Data.Types
import PaperTrader.Data.Json

namespace PaperTrader

/-- The end time `parse_iso_dt` returns: its instant, and whether it carries a timezone (a string
ending in `Z` or with an offset) or is naive, which Python refuses to compare with the aware
`utcnow()`. -/
structure EndTime where
  instant : ℚ
  aware : Bool
  deriving DecidableEq, Repr

/-- A dict of the Gamma listing, as `discover_next_market` reads it: its slug (`""` when
missing), the end time `parse_iso_dt` gives for the first of `endDateIso`, `endDate` and
`end_date_iso` that is set, its condition id (`""` when missing) and its `clobTokenIds` as
`parse_clob_token_ids` returns them. -/
structure GammaMarket where
  slug : String
  endTime : Option EndTime
  conditionId : String
  clobTokenIds : List String
  deriving DecidableEq, Repr

/-- The symbol of a slug: the first of `cfg.symbols` whose slug prefix is set and starts it. -/
def marketSymbol (cfg : StrategyConfig) (slug : String) : Option String :=
  cfg.symbols.find? fun sym =>
    cfg.slugPrefixMap.getD sym "" != "" && slug.startsWith (cfg.slugPrefixMap.getD sym "")

/-- The `ActiveMarket` the loop of `discover_next_market` appends for a market of `symbol` with
its end time, once its condition id and token ids are settled, with whether the end time is
aware: none with fewer than two token ids or no condition id. -/
def candidate (symbol slug : String) (endTime : EndTime) (conditionId : String)
    (clobIds : List String) : Option (ActiveMarket × Bool) :=
  if clobIds.length < 2 ∨ conditionId = "" then none
  else
    match clobIds with
    | up :: down :: _ =>
      some ({ symbol := symbol, slug := slug, conditionId := conditionId,
              endTime := endTime.instant, upToken := up, downToken := down }, endTime.aware)
    | _ => none

/-- The candidate a listed market makes in the loop of `discover_next_market`, if it passes its
filters, with whether its end time is aware. `bySlug` is `gamma_get_market_by_slug` as the loop
reads it, asked when fewer than two token ids are listed: the market when it returns a dict that
is not empty, nothing when it returns something falsy, and the exception when its request raises
or it returns something truthy that is not a dict. -/
def toCandidate (cfg : StrategyConfig) (onlySymbol : Option String)
    (bySlug : String → Except PyError (Option GammaMarket)) (m : GammaMarket) :
    Except PyError (Option (ActiveMarket × Bool)) :=
  if m.slug = "" then .ok none
  else
    match marketSymbol cfg m.slug with
    | none => .ok none
    | some symbol =>
      if onlySymbol.any (fun only => only != "" && symbol != only) then .ok none
      else
        match m.endTime with
        | none => .ok none
        | some endTime =>
          let enriched : Except PyError (String × List String) :=
            if m.clobTokenIds.length < 2 then
              (bySlug m.slug).map fun
                | some full =>
                  (if m.conditionId = "" then full.conditionId else m.conditionId, full.clobTokenIds)
                | none => (m.conditionId, m.clobTokenIds)
            else .ok (m.conditionId, m.clobTokenIds)
          enriched.map fun (conditionId, clobIds) =>
            candidate symbol m.slug endTime conditionId clobIds

/-- The loop of `discover_next_market` over the listed items, each a dict read as a market or the
`AttributeError` of `m.get` on an item that is not one: the candidates in order, until the first
exception. -/
def collectCandidates (cfg : StrategyConfig) (onlySymbol : Option String)
    (bySlug : String → Except PyError (Option GammaMarket)) :
    List (Except PyError GammaMarket) → Except PyError (List (ActiveMarket × Bool))
  | [] => .ok []
  | item :: items =>
    match item.bind (toCandidate cfg onlySymbol bySlug) with
    | .error e => .error e
    | .ok found => (collectCandidates cfg onlySymbol bySlug items).map (found.toList ++ ·)

/-- The head of a stable sort of a list by `key`: its first element with the least key. -/
def firstMinBy {α : Type} (key : α → ℚ) : List α → Option α
  | [] => none
  | x :: xs =>
    match firstMinBy key xs with
    | some best => if key best < key x then some best else some x
    | none => some x

/-- `discover_next_market(cfg, only_symbol)` on a listing, with `now` its clock reading. The
filter `c.end_time >= now` compares every candidate with `now`, and raises `TypeError` on the
first naive one. -/
def discoverNextMarket (cfg : StrategyConfig) (onlySymbol : Option String)
    (listing : Option (List (Except PyError GammaMarket)))
    (bySlug : String → Except PyError (Option GammaMarket)) (now : ℚ) :
    Except PyError (Option ActiveMarket) :=
  match listing with
  | none => .ok none
  | some markets =>
    (collectCandidates cfg onlySymbol bySlug markets).bind fun candidates =>
      if candidates = [] then .ok none
      else if candidates.all fun c => c.2 then
        let candidates := candidates.map Prod.fst
        let future := candidates.filter fun c => decide (now ≤ c.endTime)
        .ok (if future ≠ [] then firstMinBy ActiveMarket.endTime future
          else firstMinBy (fun c => |c.endTime - now|) candidates)
      else .error .typeError

/-! ### The pick of a stable sort -/

section FirstMin

variable {α : Type} (key : α → ℚ)

theorem firstMinBy_cons_ne_none (x : α) (xs : List α) : firstMinBy key (x :: xs) ≠ none := by
  simp only [firstMinBy]
  split
  · split_ifs <;> simp
  · simp

theorem firstMinBy_eq_none {xs : List α} : firstMinBy key xs = none ↔ xs = [] := by
  cases xs with
  | nil => simp [firstMinBy]
  | cons x xs => simpa using firstMinBy_cons_ne_none key x xs

/-- **`firstMinBy` picks what the head of a stable sort is**: a member with the least key, after
only members with larger keys. -/
theorem firstMinBy_spec :
    ∀ {xs : List α} {best : α}, firstMinBy key xs = some best →
      (∀ x ∈ xs, key best ≤ key x) ∧ ∃ before after, xs = before ++ best :: after ∧
        ∀ x ∈ before, key best < key x
  | [], _, picked => by cases picked
  | x :: xs, best, picked => by
    simp only [firstMinBy] at picked
    rcases tail : firstMinBy key xs with _ | tailBest
    · simp only [tail, Option.some.injEq] at picked
      subst picked
      obtain rfl := (firstMinBy_eq_none key).mp tail
      exact ⟨by simp, [], [], rfl, by simp⟩
    · obtain ⟨least, before, after, split, earlier⟩ := firstMinBy_spec tail
      simp only [tail] at picked
      split_ifs at picked with smaller <;> obtain rfl := Option.some.inj picked
      · refine ⟨?_, x :: before, after, by rw [split]; rfl, ?_⟩
        · simpa [smaller.le] using least
        · simpa [smaller] using earlier
      · push_neg at smaller
        exact ⟨by simpa using fun y member => smaller.trans (least y member), [], xs, rfl, by simp⟩

theorem firstMinBy_mem {xs : List α} {best : α} (picked : firstMinBy key xs = some best) :
    best ∈ xs := by
  obtain ⟨-, before, after, rfl, -⟩ := firstMinBy_spec key picked
  simp

end FirstMin

/-! ### What discovery returns -/

section Discover

variable {cfg : StrategyConfig} {onlySymbol : Option String}
  {listing : Option (List (Except PyError GammaMarket))}
  {bySlug : String → Except PyError (Option GammaMarket)} {now : ℚ}

/-- What discovery may bind: a market of a configured symbol, and of `only_symbol` when that is
set and not empty. -/
def Listed (cfg : StrategyConfig) (onlySymbol : Option String) (mkt : ActiveMarket) : Prop :=
  mkt.symbol ∈ cfg.symbols ∧ ∀ only ∈ onlySymbol, only ≠ "" → mkt.symbol = only

theorem candidate_symbol {symbol slug conditionId : String} {endTime : EndTime}
    {clobIds : List String} {c : ActiveMarket × Bool}
    (made : candidate symbol slug endTime conditionId clobIds = some c) : c.1.symbol = symbol := by
  unfold candidate at made
  split_ifs at made
  split at made
  · cases made
    rfl
  · cases made

/-- A candidate is of the configured symbol its slug starts with, which passed the
`only_symbol` filter. -/
theorem toCandidate_listed {m : GammaMarket} {c : ActiveMarket × Bool}
    (made : toCandidate cfg onlySymbol bySlug m = .ok (some c)) : Listed cfg onlySymbol c.1 := by
  unfold toCandidate at made
  rcases found : marketSymbol cfg m.slug with _ | symbol
  · simp [found] at made
  simp only [found] at made
  by_cases empty : m.slug = ""
  · simp [empty] at made
  by_cases filtered : onlySymbol.any (fun only => only != "" && symbol != only) = true
  · simp [empty, filtered] at made
  rw [if_neg empty, if_neg filtered] at made
  split at made
  · cases made
  obtain ⟨_, -, made⟩ := except_map_eq_ok.mp made
  obtain rfl := candidate_symbol made
  refine ⟨List.mem_of_find?_eq_some found, fun only member nonempty => ?_⟩
  by_contra other
  rw [Option.mem_def] at member
  subst member
  exact filtered (by simp [nonempty, other])

/-- Every candidate the loop collects is what `toCandidate` makes of a listed dict. -/
theorem collectCandidates_mem :
    ∀ {items : List (Except PyError GammaMarket)} {candidates : List (ActiveMarket × Bool)},
      collectCandidates cfg onlySymbol bySlug items = .ok candidates →
      ∀ c ∈ candidates, ∃ m, .ok m ∈ items ∧ toCandidate cfg onlySymbol bySlug m = .ok (some c)
  | [], _, collected, c, member => by cases collected; cases member
  | item :: items, candidates, collected, c, member => by
    simp only [collectCandidates] at collected
    split at collected
    · cases collected
    · next found made =>
      obtain ⟨rest, restCollected, rfl⟩ := except_map_eq_ok.mp collected
      rcases List.mem_append.mp member with here | later
      · obtain ⟨m, read, candidate⟩ := except_bind_eq_ok.mp made
        obtain rfl : found = some c := by cases found <;> simp_all
        exact ⟨m, read ▸ List.mem_cons_self _ _, candidate⟩
      · obtain ⟨m, listed, candidate⟩ := collectCandidates_mem restCollected c later
        exact ⟨m, List.mem_cons_of_mem _ listed, candidate⟩

/-- Discovery returns a candidate of the listing, once every candidate's end time is aware. -/
theorem discoverNextMarket_mem {mkt : ActiveMarket}
    (found : discoverNextMarket cfg onlySymbol listing bySlug now = .ok (some mkt)) :
    ∃ markets candidates, listing = some markets ∧
      collectCandidates cfg onlySymbol bySlug markets = .ok candidates ∧
      (∀ c ∈ candidates, c.2 = true) ∧ mkt ∈ candidates.map Prod.fst := by
  rcases listing with _ | markets
  · cases found
  obtain ⟨candidates, collected, picked⟩ := except_bind_eq_ok.mp found
  refine ⟨markets, candidates, rfl, collected, ?_⟩
  split_ifs at picked with empty aware
  · cases picked
  · refine ⟨List.all_eq_true.mp aware, ?_⟩
    dsimp only at picked
    split_ifs at picked
    · exact (List.mem_filter.mp (firstMinBy_mem _ (Except.ok.inj picked))).1
    · exact firstMinBy_mem _ (Except.ok.inj picked)

theorem discoverNextMarket_listed {mkt : ActiveMarket}
    (found : discoverNextMarket cfg onlySymbol listing bySlug now = .ok (some mkt)) :
    Listed cfg onlySymbol mkt := by
  obtain ⟨_, _, -, collected, -, listed⟩ := discoverNextMarket_mem found
  obtain ⟨c, member, rfl⟩ := List.mem_map.mp listed
  obtain ⟨m, -, made⟩ := collectCandidates_mem collected c member
  exact toCandidate_listed made

/-- **What `discover_next_market` returns**: when it returns a market, every candidate of the
listing ends at an aware time, and the market is a candidate: the earliest ending at or after
`now` when one does, and otherwise, with every candidate ended, the one ending nearest to
`now`. -/
theorem discoverNextMarket_spec {mkt : ActiveMarket}
    (found : discoverNextMarket cfg onlySymbol listing bySlug now = .ok (some mkt)) :
    ∃ markets candidates, listing = some markets ∧
      collectCandidates cfg onlySymbol bySlug markets = .ok candidates ∧
      (∀ c ∈ candidates, c.2 = true) ∧ mkt ∈ candidates.map Prod.fst ∧
      ((now ≤ mkt.endTime ∧ ∀ c ∈ candidates.map Prod.fst, now ≤ c.endTime → mkt.endTime ≤ c.endTime) ∨
        ((∀ c ∈ candidates.map Prod.fst, c.endTime < now) ∧
          ∀ c ∈ candidates.map Prod.fst, |mkt.endTime - now| ≤ |c.endTime - now|)) := by
  rcases listing with _ | markets
  · cases found
  obtain ⟨candidates, collected, picked⟩ := except_bind_eq_ok.mp found
  refine ⟨markets, candidates, rfl, collected, ?_⟩
  dsimp only at picked
  split_ifs at picked with empty aware future
  · cases picked
  · have everyAware : ∀ c ∈ candidates, c.2 = true := List.all_eq_true.mp aware
    obtain ⟨least, -⟩ := firstMinBy_spec _ (Except.ok.inj picked)
    have member := firstMinBy_mem _ (Except.ok.inj picked)
    simp only [List.mem_filter, decide_eq_true_eq] at member
    refine ⟨everyAware, member.1, .inl ⟨member.2, fun c listed later => least c ?_⟩⟩
    simpa using And.intro listed later
  · have everyAware : ∀ c ∈ candidates, c.2 = true := List.all_eq_true.mp aware
    obtain ⟨least, -⟩ := firstMinBy_spec _ (Except.ok.inj picked)
    have none_future : ∀ c ∈ candidates.map Prod.fst, c.endTime < now := fun c listed => by
      by_contra later
      exact future (List.ne_nil_of_mem (List.mem_filter.mpr ⟨listed, by simpa using later⟩))
    exact ⟨everyAware, firstMinBy_mem _ (Except.ok.inj picked), .inr ⟨none_future, least⟩⟩

/-- A listing with a `BTC` market that has ended and one that ends later, both at aware times. -/
def twoMarketListing : List (Except PyError GammaMarket) :=
  [.ok ⟨"btc-updown-15m-0", some ⟨100, true⟩, "c0", ["U0", "D0"]⟩,
    .ok ⟨"btc-updown-15m-1", some ⟨1000, true⟩, "c1", ["U1", "D1"]⟩]

/-- At `500` discovery picks the market that ends later, not the one nearer in time. -/
theorem discoverNextMarket_spec_future : ∃ mkt,
    discoverNextMarket StrategyConfig.default none (some twoMarketListing) (fun _ => .ok none) 500 =
      .ok (some mkt) ∧ mkt.slug = "btc-updown-15m-1" ∧
    ∃ markets candidates, some twoMarketListing = some markets ∧
      collectCandidates StrategyConfig.default none (fun _ => .ok none) markets = .ok candidates ∧
      (∀ c ∈ candidates, c.2 = true) ∧ mkt ∈ candidates.map Prod.fst ∧
      ((500 ≤ mkt.endTime ∧ ∀ c ∈ candidates.map Prod.fst, 500 ≤ c.endTime → mkt.endTime ≤ c.endTime) ∨
        ((∀ c ∈ candidates.map Prod.fst, c.endTime < 500) ∧
          ∀ c ∈ candidates.map Prod.fst, |mkt.endTime - 500| ≤ |c.endTime - 500|)) := by
  have found : discoverNextMarket StrategyConfig.default none (some twoMarketListing)
      (fun _ => .ok none) 500 = .ok (some ⟨"BTC", "btc-updown-15m-1", "c1", 1000, "U1", "D1"⟩) := by
    with_unfolding_all rfl
  exact ⟨_, found, rfl, discoverNextMarket_spec found⟩

end Discover

end PaperTrader
