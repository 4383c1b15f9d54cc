import Mathlib
import ResearchLab.Simulation.ExitParity

/-!
# Trades on growing candles

A simulator decides an exit in the holding window of a signal and builds a trade of it. Where it
reads no bar behind the exit, the trade of a signal stays as the candles grow at their end.
-/
namespace ResearchLab.Simulation
open Foundation

/-- The exits and the trades of a simulator that requires complete horizons. -/
structure WindowRun (α : Type) where
  hold : ℤ
  exit : List Candle → Signal → ℕ → ℚ → Exit
  build : List Candle → Signal → ℕ → ℚ → Except String α

namespace WindowRun

variable {α : Type} {R : WindowRun α} {candles candles' : List Candle} {sig : Signal}

def trade (R : WindowRun α) (candles : List Candle) (sig : Signal) : Except String (Option α) :=
  match holdingWindow candles sig.idx R.hold with
  | none => .ok none
  | some (cap, entry) =>
      if cutOff candles sig.idx R.hold (R.exit candles sig cap entry).outcome then .ok none
      else (R.build candles sig cap entry).map some

/-- Exit and trade depend on the window, and before its end on the bars up to the exit. -/
structure Causal (R : WindowRun α) : Prop where
  idx_le : ∀ {candles : List Candle} {sig : Signal} {cap : ℕ} {entry : ℚ}, sig.idx < cap → cap < candles.length →
    (R.exit candles sig cap entry).idx ≤ cap
  whole : ∀ {candles candles' : List Candle} {sig : Signal} {cap : ℕ} {entry : ℚ},
    candles.take (cap + 1) = candles'.take (cap + 1) →
    sig.idx < cap → cap < candles.length →
    R.exit candles' sig cap entry = R.exit candles sig cap entry ∧
      R.build candles' sig cap entry = R.build candles sig cap entry
  early : ∀ {candles candles' : List Candle} {sig : Signal} {cap cap' j : ℕ} {entry : ℚ},
    candles.take (j + 1) = candles'.take (j + 1) →
    (∀ i ≤ j, i ≤ cap → i ≤ cap') → sig.idx < cap → cap < candles.length →
    (cap : ℤ) ≤ sig.idx + R.hold → (cap' : ℤ) ≤ sig.idx + R.hold →
    (R.exit candles sig cap entry).outcome ≠ .timeExit → (R.exit candles sig cap entry).idx ≤ j →
    R.exit candles' sig cap' entry = R.exit candles sig cap entry ∧
      R.build candles' sig cap' entry = R.build candles sig cap entry

/-- The same exits with other trades. -/
def map {β : Type} (f : α → β) (R : WindowRun α) : WindowRun β where
  hold := R.hold
  exit := R.exit
  build candles sig cap entry := (R.build candles sig cap entry).map f

theorem map_hold {β : Type} (f : α → β) : (R.map f).hold = R.hold := rfl

theorem map_trade {β : Type} (f : α → β) :
    (R.map f).trade candles sig = (R.trade candles sig).map (Option.map f) := by
  rw [trade, trade]
  simp only [map]
  cases holdingWindow candles sig.idx R.hold with
  | none => rfl
  | some w =>
    cases hcut : cutOff candles sig.idx R.hold (R.exit candles sig w.1 w.2).outcome with
    | true => simp only [hcut, if_true, Except.map, Option.map_none]
    | false =>
      simp only [hcut, Bool.false_eq_true, if_false]
      cases R.build candles sig w.1 w.2 <;> rfl

theorem Causal.map {β : Type} (hR : R.Causal) (f : α → β) : (R.map f).Causal where
  idx_le := hR.idx_le
  whole h hidx hcap := by
    obtain ⟨hexit, hbuild⟩ := hR.whole h hidx hcap
    exact ⟨hexit, by simp only [WindowRun.map, hbuild]⟩
  early h hcap' hidx hcap hhold hhold' hout hj := by
    obtain ⟨hexit, hbuild⟩ := hR.early h hcap' hidx hcap hhold hhold' hout hj
    exact ⟨hexit, by simp only [WindowRun.map, hbuild]⟩

/-- A trade was built in the window of its signal. -/
theorem trade_eq_some {t : α} (h : R.trade candles sig = .ok (some t)) :
    ∃ cap entry, holdingWindow candles sig.idx R.hold = some (cap, entry) ∧
      R.build candles sig cap entry = .ok t := by
  rw [trade] at h
  cases hw : holdingWindow candles sig.idx R.hold with
  | none => simp [hw] at h
  | some w =>
    simp only [hw] at h
    split_ifs at h
    · cases h
    · obtain ⟨t', ht', heq⟩ := map_eq_ok.1 h
      exact ⟨w.1, w.2, rfl, ht'.trans (congrArg Except.ok (Option.some.inj heq))⟩

theorem trade_ok (h : ∀ cap entry, holdingWindow candles sig.idx R.hold = some (cap, entry) →
    ∃ t, R.build candles sig cap entry = .ok t) : ∃ o, R.trade candles sig = .ok o := by
  rw [trade]
  cases hw : holdingWindow candles sig.idx R.hold with
  | none => exact ⟨none, rfl⟩
  | some w =>
    obtain ⟨t, ht⟩ := h w.1 w.2 hw
    simp only [ht]
    split_ifs
    · exact ⟨none, rfl⟩
    · exact ⟨some t, rfl⟩

theorem holdingWindow_of_nonpos {idx : ℕ} {hold : ℤ} (h : hold ≤ 0) :
    holdingWindow candles idx hold = none := by
  rw [holdingWindow, if_pos (.inr (by omega))]

theorem take_of_grown (h : candles <+: candles') {n : ℕ} (hn : n ≤ candles.length) :
    candles.take n = candles'.take n := by
  obtain ⟨rest, rfl⟩ := h
  rw [List.take_append_of_le_length hn]

/-- A window that is complete stays as it is. -/
theorem trade_of_complete (hR : R.Causal) (h : candles <+: candles')
    (hlt : (sig.idx : ℤ) + R.hold < candles.length) : R.trade candles' sig = R.trade candles sig := by
  rcases le_or_gt R.hold 0 with hneg | hpos
  · rw [trade, trade, holdingWindow_of_nonpos hneg, holdingWindow_of_nonpos hneg]
  have hlen := h.length_le
  have hwindow : holdingWindow candles' sig.idx R.hold = holdingWindow candles sig.idx R.hold := by
    have hat : barAt candles' sig.idx = barAt candles sig.idx :=
      barAt_of_agree (take_of_grown h (by omega : sig.idx + 1 ≤ candles.length)) le_rfl
    have hcap : min ((sig.idx : ℤ) + R.hold) ((candles'.length : ℤ) - 1) =
        min ((sig.idx : ℤ) + R.hold) ((candles.length : ℤ) - 1) := by omega
    have hskip : candles'.length ≤ sig.idx ↔ candles.length ≤ sig.idx := by omega
    simp only [holdingWindow, hat, hcap, hskip]
  rw [trade, trade, hwindow]
  cases hw : holdingWindow candles sig.idx R.hold with
  | none => rfl
  | some w =>
    obtain ⟨cap, entry⟩ := w
    obtain ⟨hidx, hcap, -, -⟩ := holdingWindow_eq_some hw
    obtain ⟨hexit, hbuild⟩ : R.exit candles' sig cap entry = R.exit candles sig cap entry ∧
        R.build candles' sig cap entry = R.build candles sig cap entry :=
      hR.whole (take_of_grown h (by omega : cap + 1 ≤ candles.length)) hidx hcap
    have hcut : ∀ outcome, cutOff candles' sig.idx R.hold outcome =
        cutOff candles sig.idx R.hold outcome := by
      intro outcome
      rw [cutOff, cutOff]
      exact decide_eq_decide.2 (and_congr_right fun _ => by omega)
    simp only [hexit, hbuild, hcut]

/-- A trade stays as the candles grow. -/
theorem trade_of_prefix (hR : R.Causal) (h : candles <+: candles') {t : α}
    (ht : R.trade candles sig = .ok (some t)) : R.trade candles' sig = .ok (some t) := by
  by_cases hlt : (sig.idx : ℤ) + R.hold < candles.length
  · rw [trade_of_complete hR h hlt, ht]
  have ht' := ht
  rw [trade] at ht'
  cases hw : holdingWindow candles sig.idx R.hold with
  | none => simp [hw] at ht'
  | some w =>
    obtain ⟨cap, entry⟩ := w
    obtain ⟨hidx, hcap, hhold, -⟩ := holdingWindow_eq_some hw
    simp only [hw] at ht'
    split_ifs at ht' with hcut
    · cases ht'
    -- the window is cut, so the trade left before its end
    have hout : (R.exit candles sig cap entry).outcome ≠ .timeExit := by
      intro hout
      exact hcut (by simp only [cutOff, hout, true_and, decide_eq_true_eq]; omega)
    have hlen := h.length_le
    have hagree : candles.take (candles.length - 1 + 1) = candles'.take (candles.length - 1 + 1) :=
      take_of_grown h (by omega)
    obtain ⟨cap', hw', hcap'⟩ := holdingWindow_of_agree hagree (by omega) (by omega) hw
    obtain ⟨-, -, hhold', -⟩ := holdingWindow_eq_some hw'
    obtain ⟨hexit, hbuild⟩ := hR.early hagree hcap' hidx hcap hhold hhold' hout
      ((hR.idx_le hidx hcap).trans (by omega))
    rw [trade]
    simp only [hw', hexit, hbuild]
    rw [if_neg (by simp [cutOff, hout])]
    exact ht'

end WindowRun

/-! ## Windows that agree -/

section
variable {candles candles' : List Candle} {idx cap j : ℕ}

theorem exitOf_idx_le {σ : Type} {S : Scanner σ Candle (ℚ × Outcome)} {s : σ} (hidx : idx < cap)
    (hcap : cap < candles.length) :
    (exitOf candles idx cap (S.run s (barsBetween candles idx cap))).idx ≤ cap := by
  cases hrun : S.run s (barsBetween candles idx cap) with
  | none => exact le_rfl
  | some r =>
    have := S.lt_of_run hrun
    rw [length_barsBetween hcap] at this
    simp only [exitOf]
    omega

theorem barsBetween_of_agree (h : candles.take (cap + 1) = candles'.take (cap + 1)) (hidx : idx ≤ cap) :
    barsBetween candles' idx cap = barsBetween candles idx cap :=
  (drop_take_of_agree h (by omega)).symm

theorem exitOf_of_whole (h : candles.take (cap + 1) = candles'.take (cap + 1))
    (r : Option (ℕ × ℚ × Outcome)) : exitOf candles' idx cap r = exitOf candles idx cap r := by
  cases r with
  | none => simp only [exitOf, barAt_of_agree h le_rfl]
  | some r => rfl

/-- The description of a trade depends on the bars up to its exit. -/
theorem describeTrade_of_agree_le {entry : ℚ} {exit : Exit} {side : String} {sig : Signal}
    {retPct costPct : ℚ} (h : candles.take (j + 1) = candles'.take (j + 1)) (hidx : idx ≤ exit.idx)
    (hj : exit.idx ≤ j) :
    describeTrade candles' idx side entry exit sig retPct costPct =
      describeTrade candles idx side entry exit sig retPct costPct := by
  have hbars : barsBetween candles' idx exit.idx = barsBetween candles idx exit.idx :=
    (drop_take_of_agree h (by omega)).symm
  have hpath : tradePath candles' idx exit entry side = tradePath candles idx exit entry side := by
    simp only [tradePath, hbars]
    rw [drop_take_of_agree h (show idx + (exit.idx - idx) ≤ j + 1 by omega)]
  simp only [describeTrade, hpath, barAt_of_agree h hj, barAt_of_agree h (hidx.trans hj)]

theorem finalTrade_of_agree {sha256 : String → String} {entry : ℚ} {exit : Exit} {sig : Signal}
    {costs : Costs} (h : candles.take (j + 1) = candles'.take (j + 1)) (hidx : sig.idx ≤ exit.idx)
    (hj : exit.idx ≤ j) :
    finalTrade sha256 candles' sig.idx sig.side entry exit sig costs =
      finalTrade sha256 candles sig.idx sig.side entry exit sig costs := by
  simp only [finalTrade, describeTrade_of_agree_le h hidx hj]

end

/-! ## The exits of single scans -/

section
variable {candles candles' : List Candle} {sig : Signal} {cap cap' j : ℕ} {entry stopPct : ℚ}
  {takePct : ℚ} {hold : ℤ}

/-- A scan of the window by a rule, or by the fixed levels of the baseline. -/
def singleExit (candles : List Candle) (sig : Signal) (cap : ℕ) (entry stopPct takePct : ℚ) :
    Option ExitRule → Exit
  | some rule => scanDynamicExit candles sig.idx cap entry sig.side stopPct takePct rule
  | none => baselineExit candles sig.idx cap entry sig.side stopPct takePct

variable {rule : Option ExitRule}

theorem singleExit_idx_le (hidx : sig.idx < cap) (hcap : cap < candles.length) :
    (singleExit candles sig cap entry stopPct takePct rule).idx ≤ cap := by
  cases rule with
  | none => exact exitOf_idx_le hidx hcap
  | some rule => exact exitOf_idx_le hidx hcap

theorem le_singleExit_idx (hidx : sig.idx < cap) :
    sig.idx ≤ (singleExit candles sig cap entry stopPct takePct rule).idx := by
  cases rule with
  | none => exact exitOf_idx hidx
  | some rule => exact exitOf_idx hidx

theorem singleExit_of_whole (h : candles.take (cap + 1) = candles'.take (cap + 1))
    (hidx : sig.idx < cap) : singleExit candles' sig cap entry stopPct takePct rule =
      singleExit candles sig cap entry stopPct takePct rule := by
  cases rule with
  | none => simp only [singleExit, baselineExit, barsBetween_of_agree h hidx.le, exitOf_of_whole h]
  | some rule =>
    simp only [singleExit, scanDynamicExit, barsBetween_of_agree h hidx.le, exitOf_of_whole h]

/-- The rule reads the end of no window before it: a stop that decays over three bars does. -/
def RuleCausal (rule : Option ExitRule) (stopPct : ℚ) (hold : ℤ) : Prop :=
  rule = some .timeDecay → stopPct ≤ 0 ∨ hold ≤ 2

theorem singleExit_of_early (hrule : RuleCausal rule stopPct hold)
    (h : candles.take (j + 1) = candles'.take (j + 1)) (hcap : ∀ i ≤ j, i ≤ cap → i ≤ cap')
    (hidx : sig.idx < cap) (hlen : cap < candles.length) (hhold : (cap : ℤ) ≤ sig.idx + hold)
    (hhold' : (cap' : ℤ) ≤ sig.idx + hold)
    (hout : (singleExit candles sig cap entry stopPct takePct rule).outcome ≠ .timeExit)
    (hj : (singleExit candles sig cap entry stopPct takePct rule).idx ≤ j) :
    singleExit candles' sig cap' entry stopPct takePct rule =
      singleExit candles sig cap entry stopPct takePct rule := by
  cases rule with
  | none =>
    exact (exitOf_of_agree h hcap hidx hlen hout hj (fun _ _ => rfl) fun _ _ _ _ _ _ => rfl).2
  | some rule =>
    refine scanDynamicExit_of_agree h hcap hidx hlen hhold hhold' ?_ hout hj
    by_cases hdecay : rule = .timeDecay
    · exact .inr (hrule (congrArg some hdecay))
    · exact .inl hdecay

end

/-! ## The exits of partial scans -/

section
variable {candles candles' : List Candle} {sig : Signal} {cap cap' j : ℕ}
  {entry stopPct tp1Pct tp2Pct : ℚ}

/-- The exit of a partial scan, and whether the first half was sold before it. -/
def partialExit (candles : List Candle) (sig : Signal) (cap : ℕ) (entry stopPct tp1Pct tp2Pct : ℚ) :
    Exit × Bool :=
  let S := partialScan (isLong sig.side) entry tp1Pct tp2Pct
  let start := partialStart entry stopPct (isLong sig.side)
  let bars := barsBetween candles sig.idx cap
  (exitOf candles sig.idx cap (S.run start bars), (S.last start bars).filledFirst)

theorem partialExit_idx_le (hidx : sig.idx < cap) (hcap : cap < candles.length) :
    (partialExit candles sig cap entry stopPct tp1Pct tp2Pct).1.idx ≤ cap :=
  exitOf_idx_le hidx hcap

theorem le_partialExit_idx (hidx : sig.idx < cap) :
    sig.idx ≤ (partialExit candles sig cap entry stopPct tp1Pct tp2Pct).1.idx :=
  exitOf_idx hidx

theorem partialExit_of_whole (h : candles.take (cap + 1) = candles'.take (cap + 1))
    (hidx : sig.idx < cap) : partialExit candles' sig cap entry stopPct tp1Pct tp2Pct =
      partialExit candles sig cap entry stopPct tp1Pct tp2Pct := by
  simp only [partialExit, barsBetween_of_agree h hidx.le, exitOf_of_whole h]

theorem partialExit_of_early (h : candles.take (j + 1) = candles'.take (j + 1))
    (hcap : ∀ i ≤ j, i ≤ cap → i ≤ cap') (hidx : sig.idx < cap) (hlen : cap < candles.length)
    (hout : (partialExit candles sig cap entry stopPct tp1Pct tp2Pct).1.outcome ≠ .timeExit)
    (hj : (partialExit candles sig cap entry stopPct tp1Pct tp2Pct).1.idx ≤ j) :
    partialExit candles' sig cap' entry stopPct tp1Pct tp2Pct =
      partialExit candles sig cap entry stopPct tp1Pct tp2Pct := by
  obtain ⟨hexit, hlast⟩ := exit_and_last_of_agree h hcap hidx hlen hout hj
  exact Prod.ext hexit (congrArg PartialState.filledFirst hlast)

/-- The trade that the production path describes of a partial exit. -/
def describePartial (candles : List Candle) (sig : Signal) (entry tp1Pct costPct : ℚ)
    (left : Exit × Bool) : TradeCore :=
  let firstExit := if left.2 then (level entry tp1Pct (isLong sig.side)).getD entry else entry
  let fraction : ℚ := if left.2 then 1 / 2 else 0
  let firstRet := if left.2 then returnPct sig.side entry firstExit else 0
  let retPct := fraction * firstRet + (1 - fraction) * returnPct sig.side entry left.1.price
  { describeTrade candles sig.idx sig.side entry left.1 sig retPct costPct with
    grossPct := some (roundTo 4 retPct)
    partialExitFraction := some fraction
    partialLegPrices := some (if left.2 then [firstExit, left.1.price] else [left.1.price]) }

theorem partialDynamicTrade_eq (costPct : ℚ) :
    partialDynamicTrade candles sig.idx cap entry sig.side stopPct tp1Pct tp2Pct sig costPct =
      describePartial candles sig entry tp1Pct costPct
        (partialExit candles sig cap entry stopPct tp1Pct tp2Pct) := rfl

theorem describePartial_of_agree {left : Exit × Bool} {costPct : ℚ}
    (h : candles.take (j + 1) = candles'.take (j + 1)) (hidx : sig.idx ≤ left.1.idx)
    (hj : left.1.idx ≤ j) : describePartial candles' sig entry tp1Pct costPct left =
      describePartial candles sig entry tp1Pct costPct left := by
  simp only [describePartial, describeTrade_of_agree_le h hidx hj]

/-- The record that the second simulator makes of a partial exit. -/
def recordPartial (candles : List Candle) (sig : Signal) (entry tp1Pct costPct : ℚ)
    (left : Exit × Bool) : Except String PartialRecord :=
  mkPartial candles sig.idx left.1.idx sig.side entry
    (if left.2 then (level entry tp1Pct (isLong sig.side)).getD entry else left.1.price)
    left.1.price (if left.2 then 1 / 2 else 0) costPct left.1.outcome

theorem partialNet_eq (costPct : ℚ) :
    partialNet candles sig.idx cap entry sig.side stopPct tp1Pct tp2Pct costPct =
      recordPartial candles sig entry tp1Pct costPct
        (partialExit candles sig cap entry stopPct tp1Pct tp2Pct) := rfl

theorem recordPartial_of_agree {left : Exit × Bool} {costPct : ℚ}
    (h : candles.take (j + 1) = candles'.take (j + 1)) (hidx : sig.idx ≤ left.1.idx)
    (hj : left.1.idx ≤ j) : recordPartial candles' sig entry tp1Pct costPct left =
      recordPartial candles sig entry tp1Pct costPct left := by
  simp only [recordPartial, mkPartial, barAt_of_agree h hj, barAt_of_agree h (hidx.trans hj)]

end

/-! ## The simulators as runs over windows -/

section
variable {sha256 : String → String} {params : Params} {costs : Costs} {candles : List Candle}
  {sig : Signal} {mode : ExitMode}

/-- `simulate_trades`. -/
def tradeRun (sha256 : String → String) (params : Params) (costs : Costs) : WindowRun Trade where
  hold := holdBarsOf params
  exit candles sig cap entry := decidedExit candles params sig cap entry
  build candles sig cap entry :=
    match partialTakes params with
    | some (tp1Pct, tp2Pct) =>
        bindPartialTrade sha256 (describePartial candles sig entry tp1Pct costs.pct
          (partialExit candles sig cap entry (params.stopPct.getD 0) tp1Pct tp2Pct)) entry sig.side
          costs.feesBps costs.slippageBps costs.pct
    | none => .ok (finalTrade sha256 candles sig.idx sig.side entry
        (decidedExit candles params sig cap entry) sig costs)

/-- The rule of the scan that `simulate_trades` selects. -/
def scanRule (params : Params) : Option ExitRule :=
  if IsDynamic params then some (dynamicMode params).rule else none

theorem decidedExit_eq (params : Params) (candles : List Candle) (sig : Signal) (cap : ℕ) (entry : ℚ) :
    decidedExit candles params sig cap entry =
      match partialTakes params with
      | some (tp1Pct, tp2Pct) =>
          (partialExit candles sig cap entry (params.stopPct.getD 0) tp1Pct tp2Pct).1
      | none => singleExit candles sig cap entry (params.stopPct.getD 0) (params.takePct.getD 0)
          (scanRule params) := by
  rw [decidedExit]
  cases partialTakes params with
  | some takes => rfl
  | none =>
    simp only [scanRule]
    split_ifs <;> rfl

theorem tradeRun_hold : (tradeRun sha256 params costs).hold = holdBarsOf params := by
  simp only [tradeRun]

theorem tradeOf_eq_run : tradeOf sha256 candles params costs true sig =
    (tradeRun sha256 params costs).trade candles sig := by
  rw [tradeOf_eq, WindowRun.trade, tradeRun_hold]
  cases holdingWindow candles sig.idx (holdBarsOf params) with
  | none => rfl
  | some w =>
    simp only [true_and, tradeRun, partialDynamicTrade_eq]
    cases partialTakes params with
    | some takes =>
      simp only
      congr
    | none =>
      simp only [Except.map]
      congr

theorem tradeRun_causal
    (hrule : RuleCausal (scanRule params) (params.stopPct.getD 0) (holdBarsOf params)) :
    (tradeRun sha256 params costs).Causal where
  idx_le := by
    intro candles sig cap entry hidx hcap
    simp only [tradeRun, decidedExit_eq]
    cases partialTakes params with
    | some takes => exact partialExit_idx_le hidx hcap
    | none => exact singleExit_idx_le hidx hcap
  whole := by
    intro candles candles' sig cap entry h hidx hcap
    simp only [tradeRun, decidedExit_eq]
    cases partialTakes params with
    | some takes =>
      simp only [partialExit_of_whole h hidx, true_and]
      rw [describePartial_of_agree h (le_partialExit_idx hidx) (partialExit_idx_le hidx hcap)]
    | none =>
      simp only [singleExit_of_whole h hidx, true_and]
      rw [finalTrade_of_agree h (le_singleExit_idx hidx) (singleExit_idx_le hidx hcap)]
  early := by
    intro candles candles' sig cap cap' j entry h hcap' hidx hcap hhold hhold' hout hj
    rw [tradeRun_hold] at hhold hhold'
    simp only [tradeRun, decidedExit_eq] at hout hj ⊢
    cases htwo : partialTakes params with
    | some takes =>
      simp only [htwo] at hout hj
      simp only [partialExit_of_early h hcap' hidx hcap hout hj, true_and]
      rw [describePartial_of_agree h (le_partialExit_idx hidx) hj]
    | none =>
      simp only [htwo] at hout hj
      have hexit := singleExit_of_early hrule h hcap' hidx hcap hhold hhold' hout hj
      simp only [hexit, true_and]
      rw [finalTrade_of_agree h (le_singleExit_idx hidx) hj]

/-- `simulate_exit_mode`. -/
def modeRun (sha256 : String → String) (params : Params) (mode : ExitMode) (costs : Costs) :
    WindowRun ExitModeTrade where
  hold := mode.hold params
  exit candles sig cap entry :=
    match mode.rule with
    | .partialTake tp1Pct tp2Pct =>
        (partialExit candles sig cap entry (params.stopPct.getD 0) tp1Pct tp2Pct).1
    | rule => singleExit candles sig cap entry (params.stopPct.getD 0) (params.takePct.getD 0) (some rule)
  build candles sig cap entry :=
    match mode.rule with
    | .partialTake tp1Pct tp2Pct =>
        match recordPartial candles sig entry tp1Pct costs.pct
            (partialExit candles sig cap entry (params.stopPct.getD 0) tp1Pct tp2Pct) with
        | .error e => .error e
        | .ok r => (bindPartialRecord sha256 r costs).map .scaledOut
    | rule => .ok (.single (finalTrade sha256 candles sig.idx sig.side entry (singleExit candles sig cap
        entry (params.stopPct.getD 0) (params.takePct.getD 0) (some rule)) sig costs))

theorem modeRun_hold : (modeRun sha256 params mode costs).hold = mode.hold params := by
  simp only [modeRun]

theorem mkPartial_eq_ok {idx exitIdx : ℕ} {side : String} {entry p1 p2 frac1 costPct : ℚ}
    {outcome : Outcome} {r : PartialRecord}
    (h : mkPartial candles idx exitIdx side entry p1 p2 frac1 costPct outcome = .ok r) :
    r.outcome = outcome ∧ r.entryTs = (barAt candles idx).ts ∧ r.side = side ∧
      r.partialExitFraction = frac1 ∧ roundTo 4 r.netPct = r.netPct ∧
        roundTo 4 r.mfePct = r.mfePct ∧ roundTo 4 r.maePct = r.maePct := by
  obtain ⟨reconciliation, -, h⟩ := bind_eq_ok.1 h
  by_cases hbad : 1 / 10 ^ 9 < |reconciliation.netReturnPct.getD 0 -
      ((if frac1 = 0 then returnPct side entry p2
        else frac1 * returnPct side entry p1 + (1 - frac1) * returnPct side entry p2) - costPct * 100)|
  · rw [if_pos hbad] at h
    cases h
  · rw [if_neg hbad] at h
    rw [← Except.ok.inj h]
    exact ⟨rfl, rfl, rfl, rfl, roundTo_roundTo _ _, roundTo_roundTo _ _, roundTo_zero 4⟩

theorem exitModeTrade_eq_run
    (hrecord : ∀ cap entry tp1Pct tp2Pct, mode.rule = .partialTake tp1Pct tp2Pct →
      holdingWindow candles sig.idx (mode.hold params) = some (cap, entry) →
      ∃ r, recordPartial candles sig entry tp1Pct costs.pct
        (partialExit candles sig cap entry (params.stopPct.getD 0) tp1Pct tp2Pct) = .ok r) :
    exitModeTrade sha256 candles params mode costs true sig =
      (modeRun sha256 params mode costs).trade candles sig := by
  rw [exitModeTrade, WindowRun.trade, modeRun_hold, ExitMode.hold]
  cases hw : holdingWindow candles sig.idx (mode.holdBars.getD (params.holdBars.getD 5)) with
  | none => rfl
  | some w =>
    obtain ⟨rule, holdBars⟩ := mode
    cases rule with
    | partialTake tp1Pct tp2Pct =>
      obtain ⟨r, hr⟩ := hrecord w.1 w.2 tp1Pct tp2Pct rfl hw
      have hout := (mkPartial_eq_ok hr).1
      simp only [partialNet_eq, modeRun, hr, hout, true_and]
      cases bindPartialRecord sha256 r costs with
      | error e => simp only [Except.map]
      | ok t => simp only [Except.map]
    | _ =>
      simp only [true_and, modeRun, scan, singleExit, finalizeTrade_eq, Except.map]
      congr

theorem modeRun_causal
    (hrule : RuleCausal (some mode.rule) (params.stopPct.getD 0) (mode.hold params)) :
    (modeRun sha256 params mode costs).Causal where
  idx_le := by
    intro candles sig cap entry hidx hcap
    obtain ⟨rule, holdBars⟩ := mode
    simp only [modeRun]
    cases rule with
    | partialTake tp1Pct tp2Pct => exact partialExit_idx_le hidx hcap
    | _ => exact singleExit_idx_le hidx hcap
  whole := by
    intro candles candles' sig cap entry h hidx hcap
    obtain ⟨rule, holdBars⟩ := mode
    simp only [modeRun]
    cases rule with
    | partialTake tp1Pct tp2Pct =>
      simp only [partialExit_of_whole h hidx, true_and]
      rw [recordPartial_of_agree h (le_partialExit_idx hidx) (partialExit_idx_le hidx hcap)]
    | _ =>
      simp only [singleExit_of_whole h hidx, true_and]
      rw [finalTrade_of_agree h (le_singleExit_idx hidx) (singleExit_idx_le hidx hcap)]
  early := by
    intro candles candles' sig cap cap' j entry h hcap' hidx hcap hhold hhold' hout hj
    rw [modeRun_hold] at hhold hhold'
    obtain ⟨rule, holdBars⟩ := mode
    simp only [modeRun] at hout hj ⊢
    cases rule with
    | partialTake tp1Pct tp2Pct =>
      simp only [partialExit_of_early h hcap' hidx hcap hout hj, true_and]
      rw [recordPartial_of_agree h (le_partialExit_idx hidx) hj]
    | _ =>
      have hexit := singleExit_of_early hrule h hcap' hidx hcap hhold hhold' hout hj
      simp only [hexit, true_and]
      rw [finalTrade_of_agree h (le_singleExit_idx hidx) hj]

end

/-! ## On well-formed bars nothing raises -/

section
variable {sha256 : String → String} {params : Params} {costs : Costs} {candles : List Candle}
  {sig : Signal} {mode : ExitMode} {cap : ℕ} {entry stopPct tp1Pct tp2Pct : ℚ}

/-- The fills of a partial exit. -/
def exitFills (sig : Signal) (entry tp1Pct rate : ℚ) (left : Exit × Bool) : List Fill :=
  tradeFills left.2 ((level entry tp1Pct (isLong sig.side)).getD entry) left.1.price rate

/-- A record declares fills that close one unit, and their return. -/
structure PartialRecord.Declares (r : PartialRecord) (side : String) (entry : ℚ) (costs : Costs)
    (fills : List Fill) : Prop where
  grossPct_eq : r.grossPct = roundTo 4 (returnPct side entry (meanPrice fills))
  netPct_eq : r.netPct = roundTo 4 (returnPct side entry (meanPrice fills) - costs.pct * 100)
  quantities_eq : (if 0 < r.partialExitFraction then
    [r.partialExitFraction, 1 - r.partialExitFraction] else [1]) = fills.map Fill.quantity
  reconciliation_eq : r.fillReconciliation = unitReconciliation entry side (costs.pct * 100) fills

section
variable {hold : ℤ} (stopPct tp1Pct tp2Pct : ℚ) (hbars : ∀ bar ∈ candles, WellFormed bar)
  (hw : holdingWindow candles sig.idx hold = some (cap, entry))
include hbars hw

theorem partialExit_prices :
    let left := partialExit candles sig cap entry stopPct tp1Pct tp2Pct
    InRange (barsBetween candles sig.idx cap) left.1.price ∧
      (left.2 = true → InRange (barsBetween candles sig.idx cap)
        ((level entry tp1Pct (isLong sig.side)).getD entry)) := by
  obtain ⟨hidx, hcap, -, -⟩ := holdingWindow_eq_some hw
  have hentry := holdingWindow_inRange hbars hw
  exact ⟨partialExit_inRange hbars hidx.le hcap hentry,
    fun hfilled => firstExit_inRange hbars hentry hfilled⟩

theorem unitFills_exitFills (rate : ℚ) : UnitFills rate (exitFills sig entry tp1Pct rate
    (partialExit candles sig cap entry stopPct tp1Pct tp2Pct)) := by
  have hwindow : ∀ bar ∈ barsBetween candles sig.idx cap, WellFormed bar :=
    fun bar hbar => hbars bar (mem_barsBetween hbar)
  obtain ⟨hprice, hfirst⟩ := partialExit_prices stopPct tp1Pct tp2Pct hbars hw
  exact unitFills_tradeFills (hprice.pos hwindow) fun hfilled => (hfirst hfilled).pos hwindow

theorem recordPartial_eq (hside : sig.side = "long" ∨ sig.side = "short") (hcosts : 0 ≤ costs.pct) :
    ∃ r, recordPartial candles sig entry tp1Pct costs.pct
        (partialExit candles sig cap entry stopPct tp1Pct tp2Pct) = .ok r ∧
      r.Declares sig.side entry costs (exitFills sig entry tp1Pct (costs.pct * 100)
        (partialExit candles sig cap entry stopPct tp1Pct tp2Pct)) := by
  obtain ⟨-, -, -, hentry⟩ := holdingWindow_eq_some hw
  have hunit := unitFills_exitFills stopPct tp1Pct tp2Pct hbars hw (costs.pct * 100)
  set left := partialExit candles sig cap entry stopPct tp1Pct tp2Pct
  set firstExit := (level entry tp1Pct (isLong sig.side)).getD entry with hfirstExit
  set fills := exitFills sig entry tp1Pct (costs.pct * 100) left with hfillsEq
  have htrade : fills = tradeFills left.2 firstExit left.1.price (costs.pct * 100) := rfl
  have hreconcile := reconcilePartialFills_eq hentry hside (by positivity) hunit
  have hret := returnPct_meanPrice hentry sig.side left.2 firstExit left.1.price (costs.pct * 100)
  have hfills : (((if (if left.2 then (1 / 2 : ℚ) else 0) = 0 then [1]
      else [if left.2 then (1 / 2 : ℚ) else 0, 1 - if left.2 then (1 / 2 : ℚ) else 0]).zip
        (if (if left.2 then (1 / 2 : ℚ) else 0) = 0 then [left.1.price]
          else [if left.2 then firstExit else left.1.price, left.1.price])).map
            fun leg => (⟨leg.1, leg.2, costs.pct * 100⟩ : Fill)) = fills := by
    rw [htrade]
    cases left.2 <;> simp [tradeFills]
  have hnet : (if (if left.2 then (1 / 2 : ℚ) else 0) = 0 then returnPct sig.side entry left.1.price
      else (if left.2 then 1 / 2 else 0) *
        returnPct sig.side entry (if left.2 then firstExit else left.1.price) +
          (1 - if left.2 then 1 / 2 else 0) * returnPct sig.side entry left.1.price) =
      returnPct sig.side entry (meanPrice fills) := by
    rw [htrade, ← hret]
    cases left.2 <;> simp
  have hclose : ¬ 1 / 10 ^ 9 < |(unitReconciliation entry sig.side (costs.pct * 100)
      fills).netReturnPct.getD 0 - (returnPct sig.side entry (meanPrice fills) - costs.pct * 100)| := by
    simp only [unitReconciliation, Option.getD_some, netReturn_eq hentry, not_lt]
    exact (abs_roundTo_sub_le 10 _).trans (by norm_num)
  have hquantities : (if 0 < (if left.2 then (1 / 2 : ℚ) else 0) then
      [if left.2 then (1 / 2 : ℚ) else 0, 1 - if left.2 then (1 / 2 : ℚ) else 0] else [1]) =
        fills.map Fill.quantity := by
    rw [htrade]
    cases left.2 <;> simp [tradeFills]
  rw [recordPartial, ← hfirstExit, mkPartial, hfills, hreconcile]
  simp only [bind, Except.bind]
  rw [hnet, if_neg hclose]
  exact ⟨_, rfl, rfl, rfl, hquantities, rfl⟩

end

/-- A partial record with what `simulate_exit_mode` binds to it. -/
def boundRecord (sha256 : String → String) (r : PartialRecord) (costs : Costs) (fills : List Fill) :
    PartialTrade where
  toPartialRecord := r
  simulatorManifest := legacyFixtureManifest sha256
  simulatorModelId := (legacyFixtureManifest sha256).simulatorModelId
  simulatorEvidenceTier := (legacyFixtureManifest sha256).evidenceTier
  unsupportedSimulatorDimensions := (legacyFixtureManifest sha256).unsupportedDimensions
  costLedger := costs.ledger
  quantityLedger := unitQuantityLedger (fills.map Fill.quantity)

theorem bindPartialRecord_eq (sha256 : String → String) {r : PartialRecord} {side : String}
    {rate : ℚ} {fills : List Fill} (h : r.Declares side entry costs fills)
    (hunit : UnitFills rate fills) :
    bindPartialRecord sha256 r costs = .ok (boundRecord sha256 r costs fills) := by
  have hquantity : buildTradeQuantityLedger 1 (fills.map Fill.quantity) =
      .ok (unitQuantityLedger (fills.map Fill.quantity)) := by
    refine buildTradeQuantityLedger_unit (fun leg hleg => ?_) hunit.sum_eq
    obtain ⟨fill, hfill, rfl⟩ := List.mem_map.1 hleg
    exact hunit.quantity_pos fill hfill
  rw [bindPartialRecord, h.quantities_eq, hquantity]
  rfl

theorem tradeRun_build_ok (hbars : ∀ bar ∈ candles, WellFormed bar)
    (hside : sig.side = "long" ∨ sig.side = "short") (hcosts : 0 ≤ costs.pct)
    (hw : holdingWindow candles sig.idx (holdBarsOf params) = some (cap, entry)) :
    ∃ t, (tradeRun sha256 params costs).build candles sig cap entry = .ok t := by
  simp only [tradeRun]
  cases htwo : partialTakes params with
  | none => exact ⟨_, rfl⟩
  | some takes =>
    obtain ⟨t, ht, -⟩ := partialTrade_accepted_iff sha256 hbars hside hcosts hw htwo
    exact ⟨t, ht⟩

theorem bindPartialRecord_eq_ok {r : PartialRecord} {t : PartialTrade}
    (h : bindPartialRecord sha256 r costs = .ok t) : t.toPartialRecord = r := by
  obtain ⟨quantity, -, h⟩ := bind_eq_ok.1 h
  rw [← Except.ok.inj h]

/-- In a partial mode the trade is the bound record of its fills. -/
theorem modeRun_build_partial (hbars : ∀ bar ∈ candles, WellFormed bar)
    (hside : sig.side = "long" ∨ sig.side = "short") (hcosts : 0 ≤ costs.pct)
    (hw : holdingWindow candles sig.idx (mode.hold params) = some (cap, entry))
    (hrule : mode.rule = .partialTake tp1Pct tp2Pct) :
    ∃ r, (modeRun sha256 params mode costs).build candles sig cap entry =
        .ok (.scaledOut (boundRecord sha256 r costs (exitFills sig entry tp1Pct (costs.pct * 100)
          (partialExit candles sig cap entry (params.stopPct.getD 0) tp1Pct tp2Pct)))) ∧
      r.Declares sig.side entry costs (exitFills sig entry tp1Pct (costs.pct * 100)
        (partialExit candles sig cap entry (params.stopPct.getD 0) tp1Pct tp2Pct)) := by
  obtain ⟨r, hr, hdeclares⟩ := recordPartial_eq (params.stopPct.getD 0) tp1Pct tp2Pct hbars hw hside
    hcosts
  have hunit := unitFills_exitFills (params.stopPct.getD 0) tp1Pct tp2Pct hbars hw (costs.pct * 100)
  refine ⟨r, ?_, hdeclares⟩
  simp only [modeRun, hrule, hr, bindPartialRecord_eq sha256 hdeclares hunit, Except.map]

/-- In the other modes it is a trade with one exit. -/
theorem modeRun_build_single (hrule : ∀ tp1Pct tp2Pct, mode.rule ≠ .partialTake tp1Pct tp2Pct) :
    (modeRun sha256 params mode costs).build candles sig cap entry =
      .ok (.single (finalTrade sha256 candles sig.idx sig.side entry (singleExit candles sig cap entry
        (params.stopPct.getD 0) (params.takePct.getD 0) (some mode.rule)) sig costs)) := by
  obtain ⟨rule, holdBars⟩ := mode
  cases rule with
  | partialTake tp1Pct tp2Pct => exact absurd rfl (hrule tp1Pct tp2Pct)
  | _ => simp only [modeRun]

theorem modeRun_build_ok (hbars : ∀ bar ∈ candles, WellFormed bar)
    (hside : sig.side = "long" ∨ sig.side = "short") (hcosts : 0 ≤ costs.pct)
    (hw : holdingWindow candles sig.idx (mode.hold params) = some (cap, entry)) :
    ∃ t, (modeRun sha256 params mode costs).build candles sig cap entry = .ok t := by
  cases hrule : mode.rule with
  | partialTake tp1Pct tp2Pct =>
    obtain ⟨r, hr, -⟩ := modeRun_build_partial hbars hside hcosts hw hrule
    exact ⟨_, hr⟩
  | _ => exact ⟨_, modeRun_build_single (by simp [hrule])⟩

/-! ## What a trade says of its signal -/

/-- A reading names the bar and the side of its signal, in percentages of four decimals. -/
structure TradeReading.Of (r : TradeReading) (candles : List Candle) (sig : Signal) : Prop where
  entryTs_eq : r.entryTs = (barAt candles sig.idx).ts
  side_eq : r.side = sig.side
  netPct_rounded : roundTo 4 r.netPct = r.netPct
  mfePct_rounded : roundTo 4 r.mfePct = r.mfePct
  maePct_rounded : roundTo 4 r.maePct = r.maePct

theorem reading_finalTrade (exit : Exit) :
    (finalTrade sha256 candles sig.idx sig.side entry exit sig costs).reading.Of candles sig :=
  ⟨rfl, rfl, roundTo_roundTo _ _, roundTo_roundTo _ _, roundTo_roundTo _ _⟩

theorem reading_tradeRun {t : Trade}
    (h : (tradeRun sha256 params costs).build candles sig cap entry = .ok t) :
    t.reading.Of candles sig := by
  simp only [tradeRun] at h
  cases htwo : partialTakes params with
  | none =>
    simp only [htwo] at h
    rw [← Except.ok.inj h]
    exact reading_finalTrade _
  | some takes =>
    simp only [htwo] at h
    have hcore := bindPartialTrade_core h
    have hreading : ∀ f : TradeCore → ℚ, f t.toTradeCore = f (describePartial candles sig entry takes.1
        costs.pct (partialExit candles sig cap entry (params.stopPct.getD 0) takes.1 takes.2)) :=
      fun f => by rw [hcore]
    refine ⟨?_, ?_, ?_, ?_, ?_⟩
    · exact congrArg TradeCore.entryTs hcore
    · exact congrArg TradeCore.side hcore
    · exact (congrArg (roundTo 4) (hreading TradeCore.netPct)).trans
        ((roundTo_roundTo _ _).trans (hreading TradeCore.netPct).symm)
    · exact (congrArg (roundTo 4) (hreading TradeCore.mfePct)).trans
        ((roundTo_roundTo _ _).trans (hreading TradeCore.mfePct).symm)
    · exact (congrArg (roundTo 4) (hreading TradeCore.maePct)).trans
        ((roundTo_roundTo _ _).trans (hreading TradeCore.maePct).symm)

theorem reading_modeRun {t : ExitModeTrade}
    (h : (modeRun sha256 params mode costs).build candles sig cap entry = .ok t) :
    t.reading.Of candles sig := by
  obtain ⟨rule, holdBars⟩ := mode
  simp only [modeRun] at h
  cases rule with
  | partialTake tp1Pct tp2Pct =>
    simp only at h
    cases hr : recordPartial candles sig entry tp1Pct costs.pct
        (partialExit candles sig cap entry (params.stopPct.getD 0) tp1Pct tp2Pct) with
    | error e => simp [hr] at h
    | ok r =>
      simp only [hr] at h
      obtain ⟨t', ht', rfl⟩ := map_eq_ok.1 h
      obtain ⟨-, hts, hside, -, hnet, hmfe, hmae⟩ := mkPartial_eq_ok hr
      rw [← bindPartialRecord_eq_ok ht'] at hts hside hnet hmfe hmae
      exact ⟨hts, hside, hnet, hmfe, hmae⟩
  | _ =>
    simp only at h
    rw [← Except.ok.inj h]
    exact reading_finalTrade _

/-- The signal as it is stored: an absent regime is an empty one. -/
def Signal.stored (sig : Signal) : Signal := { sig with regime := some (sig.regime.getD []) }

theorem tradeRun_stored : (tradeRun sha256 params costs).trade candles sig.stored =
    (tradeRun sha256 params costs).trade candles sig := by
  have hbuild : ∀ cap entry, (tradeRun sha256 params costs).build candles sig.stored cap entry =
      (tradeRun sha256 params costs).build candles sig cap entry := by
    intro cap entry
    simp only [tradeRun]
    cases partialTakes params with
    | none => rfl
    | some takes => rfl
  have hexit : ∀ cap entry, (tradeRun sha256 params costs).exit candles sig.stored cap entry =
      (tradeRun sha256 params costs).exit candles sig cap entry := fun _ _ => rfl
  have hidx : sig.stored.idx = sig.idx := rfl
  simp only [WindowRun.trade, hidx, hbuild, hexit]

theorem modeRun_stored : (modeRun sha256 params mode costs).trade candles sig.stored =
    (modeRun sha256 params mode costs).trade candles sig := by
  obtain ⟨rule, holdBars⟩ := mode
  have hbuild : ∀ cap entry, (modeRun sha256 params ⟨rule, holdBars⟩ costs).build candles sig.stored
      cap entry = (modeRun sha256 params ⟨rule, holdBars⟩ costs).build candles sig cap entry := by
    intro cap entry
    simp only [modeRun]
    cases rule <;> rfl
  have hexit : ∀ cap entry, (modeRun sha256 params ⟨rule, holdBars⟩ costs).exit candles sig.stored cap
      entry = (modeRun sha256 params ⟨rule, holdBars⟩ costs).exit candles sig cap entry := by
    intro cap entry
    simp only [modeRun]
    cases rule <;> rfl
  have hidx : sig.stored.idx = sig.idx := rfl
  simp only [WindowRun.trade, hidx, hbuild, hexit]

end

end ResearchLab.Simulation
