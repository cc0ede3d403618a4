/-
**The DCA ladder of `_dca_if_trigger`, the primary side, and the entry price.**

`_dca_if_trigger` walks each side's entry down a ladder: a rung is a chunk tried at or below the
side's `next_dca_threshold`, after which the threshold drops by `dca_step_cents` and the side's
`dca_buys_done` goes up, whether the chunk filled or not. `step_ladder` says once what a tick does
to the ladder; from it:

* `LadderInv`, `step_ladderInv` — with an entry price between a cent and 99 cents and a step that
  does not climb (`LadderConfig`), each side has made at most `dca_levels + 1` rungs and waits at
  `ladderRung` of their count: the entry price lowered by one step a rung, floored at a cent
  (`clamp_ladderRung_sub`: that floor is all the clamp of `_dca_if_trigger` does);
* `runTicks_dcaLadder` — **every run of a market** keeps it from a fresh engine, and logs no more
  fills under a side's `_entry_or_dca` note than the side has made rungs;
* `runTicks_onePrimary` — **a `threshold35` run commits to one side a market**: every fill is a
  DCA chunk of its primary side's token or a hedge chunk of the other (`SideFill`), since a tick
  keeps a chosen primary and fills nothing before one is chosen (`step_sideFills`);
* `runTicks_buys_at_entry` — **a `threshold35` run buys only at or below the entry price**: each
  tick's fills were bought when their token's best ask in that tick's books was at most
  `entry_ask_cents` (`BoughtAtEntry`), the DCA rungs being below it (`ladderRung_le_entry`) and
  the hedge waiting for its side's ask to reach it (`hedgeStep_ask`).
-/

import PaperTrader.Engine.MarketRun

namespace PaperTrader

open UpDownStrategyEngine

/-! ### The two sides -/

namespace PerSide

variable {α : Type}

@[simp] theorem get_set_self (values : PerSide α) (side : Side) (value : α) :
    (values.set side value).get side = value := by
  cases side <;> rfl

@[simp] theorem get_set_other (values : PerSide α) (side : Side) (value : α) :
    (values.set side value).get side.other = values.get side.other := by
  cases side <;> rfl

end PerSide

theorem Side.eq_or_eq_other (side side' : Side) : side' = side ∨ side' = side.other := by
  cases side <;> cases side' <;> simp [Side.other]

/-! ### The fills of a side's ladder -/

/-- The fills under `side`'s `_dca_if_trigger` note: the rows its ladder writes to the trades
log. -/
def dcaFillCount (side : Side) (fills : List Fill) : ℕ :=
  fills.countP fun f => f.note == side.label ++ "_entry_or_dca"

@[simp] theorem dcaFillCount_nil (side : Side) : dcaFillCount side [] = 0 := rfl

@[simp] theorem dcaFillCount_append (side : Side) (fills fills' : List Fill) :
    dcaFillCount side (fills ++ fills') = dcaFillCount side fills + dcaFillCount side fills' :=
  List.countP_append _ _ _

theorem dcaFillCount_eq_zero {side : Side} {fills : List Fill}
    (other : ∀ f ∈ fills, f.note ≠ side.label ++ "_entry_or_dca") :
    dcaFillCount side fills = 0 := by
  simpa [dcaFillCount, List.countP_eq_zero] using other

/-- The notes of the engine's other buys are not a side's DCA note. -/
theorem dcaNote_ne (side : Side) :
    side.other.label ++ "_entry_or_dca" ≠ side.label ++ "_entry_or_dca" ∧
      "hedge_chunk_sumcap_ok" ≠ side.label ++ "_entry_or_dca" ∧
      ∀ note ∈ ["spread73_22_up_exp", "spread73_22_down_cheap", "spread73_22_down_exp",
        "spread73_22_up_cheap"], note ≠ side.label ++ "_entry_or_dca" := by
  cases side <;> decide

section Notes

variable {cfg : StrategyConfig} {mkt : ActiveMarket}

theorem maybeBuy_note {tokenId : String} {ob : OrderBook} {acct acct' : PaperAccount} {usd : ℚ}
    {note : String} {fill : Option Fill}
    (result : maybeBuy cfg mkt tokenId ob acct usd note = (acct', fill)) :
    ∀ f ∈ fill.toList, f.note = note := by
  rcases maybeBuy_cases result with ⟨-, rfl⟩ | ⟨-, -, -, -, -, rfl⟩ <;> simp

/-- Every fill of allowed buys is under a note an allowed buy of its token has. -/
theorem BuysThrough.allowed_of_mem {allowed : PaperAccount → String → OrderBook → String → Prop}
    {acct acct' : PaperAccount} {fills : List Fill}
    (through : BuysThrough cfg mkt allowed acct acct' fills) {f : Fill} (mem : f ∈ fills) :
    ∃ before ob, allowed before f.tokenId ob f.note := by
  obtain ⟨before, ob, -, permit, -⟩ :=
    through.fill_spec (fun _ => True) (fun _ _ _ _ _ _ _ _ _ => trivial) trivial f mem
  exact ⟨before, ob, permit⟩

end Notes

/-! ### What a tick does to the ladder -/

section Tick

variable {cfg : StrategyConfig} {mkt : ActiveMarket} {eng eng' : UpDownStrategyEngine}
  {acct acct' : PaperAccount} {fills : List Fill}

@[simp] theorem choosePrimary_dcaBuysDone (upAsk downAsk : ℚ) :
    (choosePrimary cfg eng upAsk downAsk).dcaBuysDone = eng.dcaBuysDone := by
  unfold choosePrimary
  split
  · rfl
  · split_ifs <;> rfl

@[simp] theorem choosePrimary_nextDcaThreshold (upAsk downAsk : ℚ) :
    (choosePrimary cfg eng upAsk downAsk).nextDcaThreshold = eng.nextDcaThreshold := by
  unfold choosePrimary
  split
  · rfl
  · split_ifs <;> rfl

/-- **What `_dca_if_trigger` does:** nothing, or, with at most `dca_levels` rungs made, one rung
of `side`: its count up by one, its threshold down by `dca_step_cents` and clamped, and the
chunk of `_maybe_buy` under the side's note, whether it fills or not. -/
theorem dcaIfTrigger_cases {side : Side} {tokenId : String} {ob : OrderBook} {bestAsk : ℚ}
    (result : dcaIfTrigger cfg mkt eng side tokenId ob bestAsk acct = (eng', acct', fills)) :
    (eng' = eng ∧ acct' = acct ∧ fills = []) ∨
      (bestAsk ≤ eng.nextDcaThreshold.get side ∧ eng.dcaBuysDone.get side ≤ cfg.dcaLevels ∧
        eng' = { eng with
          dcaBuysDone := eng.dcaBuysDone.set side (eng.dcaBuysDone.get side + 1)
          nextDcaThreshold := eng.nextDcaThreshold.set side
            (clamp (eng.nextDcaThreshold.get side - cfg.dcaStepCents / 100.0) 0.01 0.99) } ∧
        ∃ fill, maybeBuy cfg mkt tokenId ob acct cfg.buyChunkUsd (side.label ++ "_entry_or_dca") =
          (acct', fill) ∧ fills = fill.toList) := by
  rcases bought : maybeBuy cfg mkt tokenId ob acct cfg.buyChunkUsd (side.label ++ "_entry_or_dca")
    with ⟨acct1, fill⟩
  simp only [dcaIfTrigger, bought] at result
  split_ifs at result with capped triggered room
  · obtain ⟨rfl, rfl, rfl⟩ := result
    exact .inl ⟨rfl, rfl, rfl⟩
  · obtain ⟨rfl, rfl, rfl⟩ := result
    exact .inr ⟨triggered, room, rfl, fill, rfl, rfl⟩
  all_goals
    obtain ⟨rfl, rfl, rfl⟩ := result
    exact .inl ⟨rfl, rfl, rfl⟩

/-- What `_dca_if_trigger` does to the ladder and the trades log: nothing, or one rung of `side`
with at most one fill under its note. -/
theorem dcaIfTrigger_ladder {side : Side} {tokenId : String} {ob : OrderBook} {bestAsk : ℚ}
    (result : dcaIfTrigger cfg mkt eng side tokenId ob bestAsk acct = (eng', acct', fills)) :
    (eng' = eng ∧ fills = []) ∨
      (eng.dcaBuysDone.get side ≤ cfg.dcaLevels ∧
        eng' = { eng with
          dcaBuysDone := eng.dcaBuysDone.set side (eng.dcaBuysDone.get side + 1)
          nextDcaThreshold := eng.nextDcaThreshold.set side
            (clamp (eng.nextDcaThreshold.get side - cfg.dcaStepCents / 100.0) 0.01 0.99) } ∧
        dcaFillCount side fills ≤ 1 ∧ dcaFillCount side.other fills = 0) := by
  rcases dcaIfTrigger_cases result with ⟨rfl, -, rfl⟩ | ⟨-, room, rfl, fill, bought, rfl⟩
  · exact .inl ⟨rfl, rfl⟩
  · refine .inr ⟨room, rfl, (List.countP_le_length _).trans (by cases fill <;> simp), ?_⟩
    exact dcaFillCount_eq_zero fun f mem =>
      (maybeBuy_note bought f mem).trans_ne (dcaNote_ne side).1.symm

/-- **What a tick does to the ladder:** nothing, or one rung of one side (`dcaIfTrigger_ladder`);
none of its other buys is under a DCA note. -/
theorem step_ladder {fuel : ℕ} {store : OrderBookStore}
    (result : step cfg mkt fuel eng store acct = some (eng', acct', fills)) :
    (eng'.dcaBuysDone = eng.dcaBuysDone ∧ eng'.nextDcaThreshold = eng.nextDcaThreshold ∧
        ∀ side, dcaFillCount side fills = 0) ∨
      ∃ side, eng.dcaBuysDone.get side ≤ cfg.dcaLevels ∧
        eng'.dcaBuysDone = eng.dcaBuysDone.set side (eng.dcaBuysDone.get side + 1) ∧
        eng'.nextDcaThreshold = eng.nextDcaThreshold.set side
          (clamp (eng.nextDcaThreshold.get side - cfg.dcaStepCents / 100.0) 0.01 0.99) ∧
        dcaFillCount side fills ≤ 1 ∧ dcaFillCount side.other fills = 0 := by
  rcases step_cases result with ⟨rfl, -, rfl⟩ | ⟨_, _, -, -, ⟨-, ticked⟩ | ⟨-, rfl, ticked⟩⟩
  · exact .inl ⟨rfl, rfl, fun _ => rfl⟩
  · rcases stepThreshold35_cases ticked with
      ⟨-, rfl, -, rfl⟩ | ⟨side, -, acct1, dcaFills, hedgeFills, dca, hedged, rfl⟩
    · exact .inl ⟨by simp, by simp, fun _ => rfl⟩
    have hedgeCount : ∀ side', dcaFillCount side' hedgeFills = 0 := fun side' =>
      dcaFillCount_eq_zero fun f mem => by
        obtain ⟨_, _, -, note, -⟩ := (hedgeStep_buys hedged).allowed_of_mem mem
        exact note ▸ (dcaNote_ne side').2.1
    rcases dcaIfTrigger_ladder dca with ⟨rfl, rfl⟩ | ⟨room, rfl, one, other⟩
    · exact .inl ⟨by simp, by simp, by simp [hedgeCount]⟩
    · exact .inr ⟨side, by simpa using room, by simp, by simp, by simpa [hedgeCount] using one,
        by simpa [hedgeCount] using other⟩
  · refine .inl ⟨rfl, rfl, fun side => dcaFillCount_eq_zero fun f mem => ?_⟩
    obtain ⟨_, _, -, note⟩ := (stepSpread73_22_buys ticked).allowed_of_mem mem
    exact (dcaNote_ne side).2.2 _ note

/-- A tick makes a rung of a side for each fill it logs under the side's note. -/
theorem step_dcaFillCount {fuel : ℕ} {store : OrderBookStore}
    (result : step cfg mkt fuel eng store acct = some (eng', acct', fills)) (side : Side) :
    eng.dcaBuysDone.get side + dcaFillCount side fills ≤ eng'.dcaBuysDone.get side := by
  rcases step_ladder result with ⟨done, -, none⟩ | ⟨rung, -, done, -, one, other⟩
  · simp [done, none]
  · rcases Side.eq_or_eq_other rung side with rfl | rfl <;>
      simp only [done, PerSide.get_set_self, PerSide.get_set_other, other, add_zero, le_refl]
    omega

end Tick

/-! ### The ladder's invariant -/

/-- What a tick may do to the DCA ladder: nothing, or one rung of one side, made with room for
it. -/
def LadderStep (cfg : StrategyConfig) (eng eng' : UpDownStrategyEngine) : Prop :=
  (eng'.dcaBuysDone = eng.dcaBuysDone ∧ eng'.nextDcaThreshold = eng.nextDcaThreshold) ∨
    ∃ side, eng.dcaBuysDone.get side ≤ cfg.dcaLevels ∧
      eng'.dcaBuysDone = eng.dcaBuysDone.set side (eng.dcaBuysDone.get side + 1) ∧
      eng'.nextDcaThreshold = eng.nextDcaThreshold.set side
        (clamp (eng.nextDcaThreshold.get side - cfg.dcaStepCents / 100.0) 0.01 0.99)

/-- The configurations whose ladder only walks down: an entry price between a cent and 99 cents
and a step that does not climb. -/
structure LadderConfig (cfg : StrategyConfig) : Prop where
  entry_low : 0.01 ≤ cfg.entryAskCents / 100.0
  entry_high : cfg.entryAskCents / 100.0 ≤ 0.99
  step_nonneg : 0 ≤ cfg.dcaStepCents

theorem LadderConfig.default : LadderConfig StrategyConfig.default := by
  constructor <;> with_unfolding_all decide

/-- The price a side waits at after `rungs` rungs: the entry price lowered by `dca_step_cents` a
rung, floored at a cent. -/
def ladderRung (cfg : StrategyConfig) (rungs : ℕ) : ℚ :=
  max 0.01 (cfg.entryAskCents / 100.0 - rungs * (cfg.dcaStepCents / 100.0))

/-- Each side has made at most `dca_levels + 1` rungs (the entry and `dca_levels` DCA buys) and
waits at the rung of their count. -/
structure LadderInv (cfg : StrategyConfig) (eng : UpDownStrategyEngine) : Prop where
  done_le : ∀ side, eng.dcaBuysDone.get side ≤ cfg.dcaLevels + 1
  threshold_eq : ∀ side, eng.nextDcaThreshold.get side = ladderRung cfg (eng.dcaBuysDone.get side)

/-- Lowering a floored value by a step that does not climb, then clamping it under a ceiling it
was under, floors the lowered value. -/
theorem clamp_max_sub {lo hi x s : ℚ} (bounds : lo ≤ hi) (below : x ≤ hi) (step : 0 ≤ s) :
    clamp (max lo x - s) lo hi = max lo (x - s) := by
  have top : max lo x - s ≤ hi := by linarith [max_le bounds below]
  rw [clamp, min_eq_right top]
  rcases le_total lo x with high | low
  · rw [max_eq_right high]
  · rw [max_eq_left low, max_eq_left (by linarith), max_eq_left (by linarith)]

section Invariant

variable {cfg : StrategyConfig} (plain : LadderConfig cfg)
include plain

/-- The clamp of `_dca_if_trigger` after a rung is the ladder's floor at a cent. -/
theorem clamp_ladderRung_sub (rungs : ℕ) :
    clamp (ladderRung cfg rungs - cfg.dcaStepCents / 100.0) 0.01 0.99 = ladderRung cfg (rungs + 1) := by
  have step : 0 ≤ cfg.dcaStepCents / 100.0 := div_nonneg plain.step_nonneg (by norm_num)
  have lowered : 0 ≤ rungs * (cfg.dcaStepCents / 100.0) := mul_nonneg (Nat.cast_nonneg _) step
  rw [ladderRung, ladderRung, @clamp_max_sub 0.01 0.99 _ _ (by norm_num)
    ((sub_le_self _ lowered).trans plain.entry_high) step, Nat.cast_succ]
  congr 1
  ring

/-- Every rung is at or below the entry price. -/
theorem ladderRung_le_entry (rungs : ℕ) : ladderRung cfg rungs ≤ cfg.entryAskCents / 100.0 :=
  max_le plain.entry_low
    (sub_le_self _ (mul_nonneg (Nat.cast_nonneg _) (div_nonneg plain.step_nonneg (by norm_num))))

theorem resetForNewMarket_ladderInv (eng : UpDownStrategyEngine) :
    LadderInv cfg (resetForNewMarket cfg eng) := by
  have start : ladderRung cfg 0 = cfg.entryAskCents / 100.0 := by
    simpa [ladderRung] using plain.entry_low
  constructor <;> intro side <;> cases side <;> simp [resetForNewMarket, PerSide.get, start]

/-- A ladder move keeps the ladder's invariant: a rung is made only with room for it, and lowers
the side's threshold to the next rung. -/
theorem LadderInv.of_ladderStep {eng eng' : UpDownStrategyEngine} (inv : LadderInv cfg eng)
    (moved : LadderStep cfg eng eng') : LadderInv cfg eng' := by
  rcases moved with ⟨done, threshold⟩ | ⟨side, room, done, threshold⟩
  · exact ⟨fun s => done ▸ inv.done_le s, fun s => by rw [threshold, done]; exact inv.threshold_eq s⟩
  · refine ⟨fun s => ?_, fun s => ?_⟩ <;>
      rcases Side.eq_or_eq_other side s with rfl | rfl <;>
      simp only [done, threshold, PerSide.get_set_self, PerSide.get_set_other, inv.done_le,
        inv.threshold_eq, clamp_ladderRung_sub plain]
    omega

/-- **A tick keeps the ladder's invariant**, and makes at most one rung of a side for each fill
it logs under the side's note. -/
theorem step_ladderInv {mkt : ActiveMarket} {fuel : ℕ} {eng eng' : UpDownStrategyEngine}
    {store : OrderBookStore} {acct acct' : PaperAccount} {fills : List Fill}
    (inv : LadderInv cfg eng) (result : step cfg mkt fuel eng store acct = some (eng', acct', fills)) :
    LadderInv cfg eng' ∧
      ∀ side, eng.dcaBuysDone.get side + dcaFillCount side fills ≤ eng'.dcaBuysDone.get side := by
  refine ⟨inv.of_ladderStep plain ?_, step_dcaFillCount result⟩
  rcases step_ladder result with ⟨done, threshold, -⟩ | ⟨side, room, done, threshold, -, -⟩
  exacts [.inl ⟨done, threshold⟩, .inr ⟨side, room, done, threshold⟩]

end Invariant

/-! ### Over a market's run -/

section Run

variable {cfg : StrategyConfig} {mkt : ActiveMarket} {fuel : ℕ}

theorem runTicks_cons_cases {eng eng' : UpDownStrategyEngine} {acct acct' : PaperAccount}
    {store : OrderBookStore} {stores : List OrderBookStore} {fills : List Fill}
    (result : runTicks cfg mkt fuel eng acct (store :: stores) = some (eng', acct', fills)) :
    ∃ eng1 acct1 fills1 rest, step cfg mkt fuel eng store acct = some (eng1, acct1, fills1) ∧
      runTicks cfg mkt fuel eng1 acct1 stores = some (eng', acct', rest) ∧ fills = fills1 ++ rest := by
  simp only [runTicks] at result
  split at result
  · next eng1 acct1 fills1 ticked =>
    obtain ⟨⟨eng2, acct2, rest⟩, later, same⟩ := Option.map_eq_some'.mp result
    obtain ⟨rfl, rfl, rfl⟩ := same
    exact ⟨eng1, acct1, fills1, rest, ticked, later, rfl⟩
  · cases result

theorem runTicks_ladderInv (plain : LadderConfig cfg) :
    ∀ {stores : List OrderBookStore} {eng eng' : UpDownStrategyEngine} {acct acct' : PaperAccount}
      {fills : List Fill}, LadderInv cfg eng →
      runTicks cfg mkt fuel eng acct stores = some (eng', acct', fills) →
      LadderInv cfg eng' ∧
        ∀ side, eng.dcaBuysDone.get side + dcaFillCount side fills ≤ eng'.dcaBuysDone.get side
  | [], _, _, _, _, _, inv, result => by
    obtain ⟨rfl, rfl, rfl⟩ := Option.some.inj result
    exact ⟨inv, fun _ => by simp⟩
  | _ :: _, _, _, _, _, _, inv, result => by
    obtain ⟨eng1, acct1, fills1, rest, ticked, later, rfl⟩ := runTicks_cons_cases result
    obtain ⟨inv1, first⟩ := step_ladderInv plain inv ticked
    obtain ⟨inv2, rest⟩ := runTicks_ladderInv plain inv1 later
    exact ⟨inv2, fun side => by have := first side; have := rest side; simp only [dcaFillCount_append]; omega⟩

/-- **The DCA ladder over a market's run.** From a fresh engine, every run of ticks leaves each
side with at most `dca_levels + 1` rungs made, waiting at the rung of their count, and with no
more fills under its `_entry_or_dca` note than rungs made. -/
theorem runTicks_dcaLadder (plain : LadderConfig cfg) {mode : Mode} {stores : List OrderBookStore}
    {acct acct' : PaperAccount} {eng' : UpDownStrategyEngine} {fills : List Fill}
    (result : runTicks cfg mkt fuel (new cfg mode) acct stores = some (eng', acct', fills))
    (side : Side) :
    dcaFillCount side fills ≤ eng'.dcaBuysDone.get side ∧
      eng'.dcaBuysDone.get side ≤ cfg.dcaLevels + 1 ∧
      eng'.nextDcaThreshold.get side = ladderRung cfg (eng'.dcaBuysDone.get side) := by
  obtain ⟨inv, count⟩ := runTicks_ladderInv plain (resetForNewMarket_ladderInv plain _) result
  have fresh : (new cfg mode).dcaBuysDone.get side = 0 := by cases side <;> rfl
  exact ⟨(fresh ▸ count side).trans_eq' (zero_add _).symm, inv.done_le side, inv.threshold_eq side⟩

theorem runTicks_dcaLadder_entry : LadderConfig StrategyConfig.default ∧ ∃ eng acct fills,
    runTicks StrategyConfig.default sampleMarket 10 (new StrategyConfig.default .threshold35)
      (freshAccount 100) [bookPair [(0.30, 100)] [(0.30, 100)]] = some (eng, acct, fills) ∧
    dcaFillCount .up fills ≤ eng.dcaBuysDone.get .up ∧
      eng.dcaBuysDone.get .up ≤ StrategyConfig.default.dcaLevels + 1 ∧
      eng.nextDcaThreshold.get .up = ladderRung StrategyConfig.default (eng.dcaBuysDone.get .up) := by
  obtain ⟨⟨eng, acct, fills⟩, ran⟩ := Option.isSome_iff_exists.mp
    (show (runTicks StrategyConfig.default sampleMarket 10 (new StrategyConfig.default .threshold35)
      (freshAccount 100) [bookPair [(0.30, 100)] [(0.30, 100)]]).isSome = true by
        with_unfolding_all decide)
  exact ⟨.default, eng, acct, fills, ran, runTicks_dcaLadder .default ran .up⟩

end Run

/-! ### One primary side a market -/

/-- A fill of a `threshold35` run whose primary side is `side`: a DCA chunk of the side's token
under its note, or a hedge chunk of the other token. -/
def SideFill (mkt : ActiveMarket) (side : Side) (f : Fill) : Prop :=
  (f.tokenId = mkt.token side ∧ f.note = side.label ++ "_entry_or_dca") ∨
    (f.tokenId = mkt.token side.other ∧ f.note = "hedge_chunk_sumcap_ok")

section Primary

variable {cfg : StrategyConfig} {mkt : ActiveMarket} {fuel : ℕ}

/-- A `threshold35` tick keeps its mode and a chosen primary; with no primary it fills nothing,
and with one every fill is of that side. -/
theorem step_sideFills {eng eng' : UpDownStrategyEngine} {store : OrderBookStore}
    {acct acct' : PaperAccount} {fills : List Fill} (mode : eng.mode = .threshold35)
    (result : step cfg mkt fuel eng store acct = some (eng', acct', fills)) :
    eng'.mode = .threshold35 ∧ (∀ side, eng.primary = some side → eng'.primary = some side) ∧
      (eng'.primary = none → fills = []) ∧
      ∀ side, eng'.primary = some side → ∀ f ∈ fills, SideFill mkt side f := by
  obtain ⟨keep, quiet, buys⟩ := step_threshold35 mode result
  refine ⟨(step_buys result).1.trans mode, keep, fun unchosen => (quiet unchosen).2,
    fun side chosen f mem => ?_⟩
  obtain ⟨acct1, dcaFills, hedgeFills, rfl, dca, hedge⟩ := buys side chosen
  rcases List.mem_append.mp mem with early | late
  · obtain ⟨_, _, token, note, -⟩ := dca.allowed_of_mem early
    exact .inl ⟨token, note⟩
  · obtain ⟨_, _, token, note, -⟩ := hedge.allowed_of_mem late
    exact .inr ⟨token, note⟩

/-- Over a `threshold35` run of ticks, one side is the primary of every fill: the engine's own,
once it has one. -/
theorem runTicks_sideFills :
    ∀ {stores : List OrderBookStore} {eng eng' : UpDownStrategyEngine} {acct acct' : PaperAccount}
      {fills : List Fill}, eng.mode = .threshold35 →
      runTicks cfg mkt fuel eng acct stores = some (eng', acct', fills) →
      ∃ side, (∀ chosen, eng.primary = some chosen → side = chosen) ∧
        ∀ f ∈ fills, SideFill mkt side f
  | [], eng, _, _, _, _, _, result => by
    obtain ⟨rfl, rfl, rfl⟩ := Option.some.inj result
    exact ⟨eng.primary.getD .up, fun _ chosen => by simp [chosen], fun _ mem => by cases mem⟩
  | _ :: _, _, _, _, _, _, mode, result => by
    obtain ⟨eng1, acct1, fills1, rest, ticked, later, rfl⟩ := runTicks_cons_cases result
    obtain ⟨mode1, keep, quiet, sided⟩ := step_sideFills mode ticked
    obtain ⟨side, agrees, restSided⟩ := runTicks_sideFills mode1 later
    cases primary1 : eng1.primary with
    | none =>
      refine ⟨side, fun chosen before => ?_, ?_⟩
      · simp [keep chosen before] at primary1
      · rw [quiet primary1, List.nil_append]
        exact restSided
    | some side1 =>
      obtain rfl := agrees side1 primary1
      refine ⟨side, fun chosen before => Option.some.inj (primary1.symm.trans (keep chosen before)),
        fun f mem => ?_⟩
      rcases List.mem_append.mp mem with now | afterwards
      · exact sided side primary1 f now
      · exact restSided f afterwards

/-- **One primary side a market.** Every `threshold35` run of ticks from a fresh engine commits
to one side: each fill it makes is a DCA chunk of that side's token under the side's
`_entry_or_dca` note, or a hedge chunk of the other token under `hedge_chunk_sumcap_ok`. It never
lays a DCA ladder on both sides of a market. -/
theorem runTicks_onePrimary {stores : List OrderBookStore} {acct acct' : PaperAccount}
    {eng' : UpDownStrategyEngine} {fills : List Fill}
    (result : runTicks cfg mkt fuel (new cfg .threshold35) acct stores = some (eng', acct', fills)) :
    ∃ side, ∀ f ∈ fills, SideFill mkt side f :=
  let ⟨side, _, sided⟩ := runTicks_sideFills rfl result
  ⟨side, sided⟩

theorem runTicks_onePrimary_entry : ∃ eng acct fills,
    runTicks StrategyConfig.default sampleMarket 10 (new StrategyConfig.default .threshold35)
      (freshAccount 100) [bookPair [(0.30, 100)] [(0.30, 100)], bookPair [(0.30, 100)] [(0.30, 100)]] =
        some (eng, acct, fills) ∧ fills ≠ [] ∧ ∃ side, ∀ f ∈ fills, SideFill sampleMarket side f := by
  have traded : (runTicks StrategyConfig.default sampleMarket 10 (new StrategyConfig.default .threshold35)
      (freshAccount 100) [bookPair [(0.30, 100)] [(0.30, 100)], bookPair [(0.30, 100)] [(0.30, 100)]]).map
        (fun r => r.2.2.isEmpty) = some false := by
    with_unfolding_all decide
  obtain ⟨⟨eng, acct, fills⟩, ran, nonempty⟩ := Option.map_eq_some'.mp traded
  exact ⟨eng, acct, fills, ran, by simpa using nonempty, runTicks_onePrimary ran⟩

end Primary

/-! ### Buying at or below the entry price -/

/-- A fill bought at the entry price: when the tick read `store`, its token's best ask was at
most `entry_ask_cents`. -/
def BoughtAtEntry (cfg : StrategyConfig) (store : OrderBookStore) (f : Fill) : Prop :=
  ∃ ask, (store.get f.tokenId).bestAsk = some ask ∧ ask ≤ cfg.entryAskCents / 100.0

section Entry

variable {cfg : StrategyConfig} {mkt : ActiveMarket} {fuel : ℕ}

/-- `_hedge_chunks` buys only when the hedge side's ask is at most the entry price. -/
theorem hedgeStep_ask {side : Side} {hedgeOb : OrderBook} {hedgeAsk : ℚ} {acct acct' : PaperAccount}
    {fills : List Fill}
    (result : (if 0 < (acct.position (mkt.token side)).costUsd then
        hedgeChunks cfg mkt fuel (mkt.token side) (mkt.token side.other)
          (acct.position (mkt.token side)) (acct.position (mkt.token side.other)) hedgeOb hedgeAsk
          acct
      else some (acct, [])) = some (acct', fills)) (traded : fills ≠ []) :
    hedgeAsk ≤ cfg.entryAskCents / 100.0 := by
  unfold hedgeChunks at result
  split_ifs at result with primary above
  · obtain ⟨-, rfl⟩ := Prod.mk.inj (Option.some.inj result)
    exact absurd rfl traded
  · exact not_lt.mp above
  · obtain ⟨-, rfl⟩ := Prod.mk.inj (Option.some.inj result)
    exact absurd rfl traded

/-- A `threshold35` tick whose ladder keeps its invariant buys only at or below the entry price:
a DCA chunk at or below its side's rung, a hedge chunk once the hedge side's ask is at the entry
price. -/
theorem step_boughtAtEntry (plain : LadderConfig cfg) {eng eng' : UpDownStrategyEngine}
    {store : OrderBookStore} {acct acct' : PaperAccount} {fills : List Fill}
    (inv : LadderInv cfg eng) (mode : eng.mode = .threshold35)
    (result : step cfg mkt fuel eng store acct = some (eng', acct', fills)) :
    ∀ f ∈ fills, BoughtAtEntry cfg store f := by
  intro f mem
  rcases step_cases result with ⟨-, -, rfl⟩ |
    ⟨upAsk, downAsk, upBest, downBest, ⟨-, ticked⟩ | ⟨spread, -⟩⟩
  · cases mem
  · have best : ∀ s : Side,
        (store.get (mkt.token s)).bestAsk = some ((⟨upAsk, downAsk⟩ : PerSide ℚ).get s) := by
      intro s
      cases s
      exacts [upBest, downBest]
    rcases stepThreshold35_cases ticked with ⟨-, -, -, rfl⟩ |
      ⟨side, -, acct1, dcaFills, hedgeFills, dca, hedged, rfl⟩
    · cases mem
    rcases List.mem_append.mp mem with early | late
    · rcases dcaIfTrigger_cases dca with ⟨-, -, rfl⟩ | ⟨below, -⟩
      · cases early
      obtain ⟨_, _, token, -⟩ := (dcaIfTrigger_buys dca).2.2.allowed_of_mem early
      refine ⟨_, by rw [token]; exact best side, below.trans ?_⟩
      rw [choosePrimary_nextDcaThreshold, inv.threshold_eq]
      exact ladderRung_le_entry plain _
    · obtain ⟨_, _, token, -⟩ := (hedgeStep_buys hedged).allowed_of_mem late
      exact ⟨_, by rw [token]; exact best side.other, hedgeStep_ask hedged (List.ne_nil_of_mem late)⟩
  · rw [mode] at spread
    cases spread

/-- Over a `threshold35` run of ticks whose ladder starts in its invariant, each tick's fills were
bought at or below the entry price in that tick's books. -/
theorem runTicks_boughtAtEntry (plain : LadderConfig cfg) :
    ∀ {stores : List OrderBookStore} {eng eng' : UpDownStrategyEngine} {acct acct' : PaperAccount}
      {fills : List Fill}, LadderInv cfg eng → eng.mode = .threshold35 →
      runTicks cfg mkt fuel eng acct stores = some (eng', acct', fills) →
      ∃ perTick : List (List Fill), fills = perTick.flatten ∧
        List.Forall₂ (fun store tickFills => ∀ f ∈ tickFills, BoughtAtEntry cfg store f) stores perTick
  | [], _, _, _, _, _, _, _, result => by
    obtain ⟨rfl, rfl, rfl⟩ := Option.some.inj result
    exact ⟨[], rfl, .nil⟩
  | _ :: _, _, _, _, _, _, inv, mode, result => by
    obtain ⟨eng1, acct1, fills1, rest, ticked, later, rfl⟩ := runTicks_cons_cases result
    obtain ⟨perTick, rfl, each⟩ := runTicks_boughtAtEntry plain (step_ladderInv plain inv ticked).1
      ((step_buys ticked).1.trans mode) later
    exact ⟨fills1 :: perTick, rfl, .cons (step_boughtAtEntry plain inv mode ticked) each⟩

/-- **A `threshold35` run buys only at or below the entry price.** From a fresh engine, with a
ladder that only walks down from an entry price between a cent and 99 cents, every fill of every
tick of a run was bought when its token's best ask in that tick's books was at most
`entry_ask_cents`: the DCA rungs never climb above it, and the hedge waits for its side's ask to
reach it. -/
theorem runTicks_buys_at_entry (plain : LadderConfig cfg) {stores : List OrderBookStore}
    {acct acct' : PaperAccount} {eng' : UpDownStrategyEngine} {fills : List Fill}
    (result : runTicks cfg mkt fuel (new cfg .threshold35) acct stores = some (eng', acct', fills)) :
    ∃ perTick : List (List Fill), fills = perTick.flatten ∧
      List.Forall₂ (fun store tickFills => ∀ f ∈ tickFills, BoughtAtEntry cfg store f) stores perTick :=
  runTicks_boughtAtEntry plain
    (show LadderInv cfg (new cfg .threshold35) from resetForNewMarket_ladderInv plain _) rfl result

theorem runTicks_buys_at_entry_hedged : LadderConfig StrategyConfig.default ∧ ∃ eng acct fills,
    runTicks StrategyConfig.default sampleMarket 10 (new StrategyConfig.default .threshold35)
      (freshAccount 100) [bookPair [(0.30, 100)] [(0.30, 100)]] = some (eng, acct, fills) ∧
    fills ≠ [] ∧ ∃ perTick : List (List Fill), fills = perTick.flatten ∧
      List.Forall₂ (fun store tickFills => ∀ f ∈ tickFills, BoughtAtEntry StrategyConfig.default store f)
        [bookPair [(0.30, 100)] [(0.30, 100)]] perTick := by
  have traded : (runTicks StrategyConfig.default sampleMarket 10 (new StrategyConfig.default .threshold35)
      (freshAccount 100) [bookPair [(0.30, 100)] [(0.30, 100)]]).map (fun r => r.2.2.isEmpty) =
        some false := by
    with_unfolding_all decide
  obtain ⟨⟨eng, acct, fills⟩, ran, nonempty⟩ := Option.map_eq_some'.mp traded
  exact ⟨.default, eng, acct, fills, ran, by simpa using nonempty, runTicks_buys_at_entry .default ran⟩

end Entry

end PaperTrader
