import Mathlib
import ResearchLab.Foundation.Checks
import ResearchLab.Foundation.Sha256
import ResearchLab.Simulation.Exits

/-!
# Look-ahead

Whether the trade of a signal depends on bars behind its exit. Every mode judges a bar by the
bars before it, but `time_decay` also by the length of the window, which the end of the data
cuts.
-/
namespace ResearchLab.Simulation
open Foundation

/-- The trade of a signal closes by a level touched at bar `j` or earlier. -/
def ClosesBy (sig : Signal) (j : ℕ) (t : Trade) : Prop :=
  t.outcome ≠ .timeExit ∧ sig.idx + t.barsHeld ≤ j

/-- The same exit bar, exit price, outcome, excursions and net return. -/
def SameExit (t t' : Trade) : Prop :=
  t'.barsHeld = t.barsHeld ∧ t'.exit = t.exit ∧ t'.outcome = t.outcome ∧ t'.mfePct = t.mfePct ∧
    t'.maePct = t.maePct ∧ t'.netPct = t.netPct

/-- Two lists of candles that agree on the bars `0, .., j` give the same trade if it closes
there. -/
def NoLookAhead (sha256 : String → String) (params : Params) (costs : Costs)
    (requireCompleteHorizon : Bool) (sig : Signal) : Prop :=
  ∀ (candles candles' : List Candle) (j : ℕ) (t : Trade),
    sig.idx + 1 < candles.length → sig.idx + 1 < candles'.length →
    candles.take (j + 1) = candles'.take (j + 1) →
    tradeOf sha256 candles params costs requireCompleteHorizon sig = .ok (some t) →
    ClosesBy sig j t →
    ∃ t', tradeOf sha256 candles' params costs requireCompleteHorizon sig = .ok (some t') ∧
      SameExit t t'

section
variable {candles candles' : List Candle} {j idx cap cap' : ℕ}

theorem lt_length_of_agree (h : candles.take (j + 1) = candles'.take (j + 1)) {i : ℕ}
    (hi : i ≤ j) (hlt : i < candles.length) : i < candles'.length := by
  have := congrArg List.length h
  simp only [List.length_take] at this
  omega

theorem barAt_of_agree (h : candles.take (j + 1) = candles'.take (j + 1)) {i : ℕ} (hi : i ≤ j) :
    barAt candles' i = barAt candles i := by
  have := congrArg (fun l => l.getD i default) h
  simpa [barAt, List.getD_eq_getElem?_getD, List.getElem?_take, Nat.lt_succ_iff.2 hi]
    using this.symm

theorem holdingWindow_of_agree {holdBars : ℤ} {entry : ℚ}
    (h : candles.take (j + 1) = candles'.take (j + 1)) (hidx : idx ≤ j)
    (hlen : idx + 1 < candles'.length)
    (hw : holdingWindow candles idx holdBars = some (cap, entry)) :
    ∃ cap', holdingWindow candles' idx holdBars = some (cap', entry) ∧
      ∀ i ≤ j, i ≤ cap → i ≤ cap' := by
  obtain ⟨hlt, hcap, hhold, -⟩ := holdingWindow_eq_some hw
  simp only [holdingWindow] at hw ⊢
  rw [barAt_of_agree h hidx]
  split_ifs at hw with hskip hentry
  obtain ⟨-, rfl⟩ : _ ∧ (barAt candles idx).openPrice = entry := by simpa using hw
  refine ⟨(min (idx + holdBars) ((candles'.length : ℤ) - 1)).toNat, ?_, fun i hi hic => ?_⟩
  · rw [if_neg (by omega), if_neg hentry]
  · have := lt_length_of_agree h hi (by omega)
    omega

theorem drop_take_of_agree (h : candles.take (j + 1) = candles'.take (j + 1)) {k : ℕ}
    (hk : idx + k ≤ j + 1) : (candles.drop idx).take k = (candles'.drop idx).take k := by
  have := congrArg (fun l => (l.take (idx + k)).drop idx) h
  simpa [List.take_take, Nat.min_eq_left hk, List.drop_take] using this

theorem barsBetween_take (candles : List Candle) {k : ℕ} (hcap : idx + k ≤ cap) :
    (barsBetween candles idx cap).take (k + 1) = (candles.drop idx).take (k + 1) := by
  rw [barsBetween, List.take_take, Nat.min_eq_left (by omega)]

theorem exitOf_of_ne_timeExit {r : Option (ℕ × ℚ × Outcome)}
    (h : (exitOf candles idx cap r).outcome ≠ .timeExit) :
    ∃ k price outcome, r = some (k, price, outcome) ∧
      exitOf candles idx cap r = ⟨price, outcome, idx + k⟩ := by
  cases r with
  | none => exact absurd rfl h
  | some r => exact ⟨r.1, r.2.1, r.2.2, rfl, rfl⟩

/-- Two scans over windows that agree up to the exit of the one. -/
theorem exitOf_of_agree {σ : Type} {S S' : Scanner σ Candle (ℚ × Outcome)} {s : σ}
    (h : candles.take (j + 1) = candles'.take (j + 1)) (hcap : ∀ i ≤ j, i ≤ cap → i ≤ cap')
    (hlt : idx < cap) (hlen : cap < candles.length)
    (hout : (exitOf candles idx cap (S.run s (barsBetween candles idx cap))).outcome ≠ .timeExit)
    (hj : (exitOf candles idx cap (S.run s (barsBetween candles idx cap))).idx ≤ j)
    (hexit : ∀ s b, S'.exit? s b = S.exit? s b)
    (hstate : ∀ k, idx + k ≤ cap → idx + k ≤ cap' →
      (barsBetween candles idx cap).take (k + 1) = (barsBetween candles' idx cap').take (k + 1) →
      ∀ i ≤ k, S'.stateAt s (barsBetween candles' idx cap') i =
        S.stateAt s (barsBetween candles idx cap) i) :
    S'.run s (barsBetween candles' idx cap') = S.run s (barsBetween candles idx cap) ∧
      exitOf candles' idx cap' (S'.run s (barsBetween candles' idx cap')) =
        exitOf candles idx cap (S.run s (barsBetween candles idx cap)) := by
  obtain ⟨k, price, outcome, hrun, hex⟩ := exitOf_of_ne_timeExit hout
  rw [hex] at hj ⊢
  have hk : idx + k ≤ cap := by
    have := S.lt_of_run hrun
    rw [length_barsBetween hlen] at this
    omega
  have hk' : idx + k ≤ cap' := hcap _ hj hk
  have hinit : (barsBetween candles idx cap).take (k + 1) =
      (barsBetween candles' idx cap').take (k + 1) := by
    rw [barsBetween_take _ hk, barsBetween_take _ hk']
    exact drop_take_of_agree h (by dsimp only at hj; omega)
  have hrun' := Scanner.run_of_agree hrun hinit hexit (hstate k hk hk' hinit)
  exact ⟨hrun'.trans hrun.symm, by rw [hrun']; rfl⟩

theorem describeTrade_of_agree {entry : ℚ} {exit : Exit} {side : String} {sig : Signal}
    {retPct costPct : ℚ} (h : candles.take (j + 1) = candles'.take (j + 1))
    (hidx : idx ≤ exit.idx) (hj : exit.idx ≤ j) (hout : exit.outcome ≠ .timeExit) :
    describeTrade candles' idx side entry exit sig retPct costPct =
      describeTrade candles idx side entry exit sig retPct costPct := by
  have hpath : tradePath candles' idx exit entry side = tradePath candles idx exit entry side := by
    simp only [tradePath, if_neg hout]
    rw [drop_take_of_agree h (show idx + (exit.idx - idx) ≤ j + 1 by omega)]
  simp only [describeTrade, hpath, barAt_of_agree h hj, barAt_of_agree h (hidx.trans hj)]

/-- The trade of a decided exit stays the same when the exit does. -/
theorem exitTrade_of_agree {sha256 : String → String} {holdBars : ℤ} {entry : ℚ} {exit exit' : Exit}
    {sig : Signal} {costs : Costs} {requireCompleteHorizon : Bool} {t : Trade}
    (h : candles.take (j + 1) = candles'.take (j + 1)) (hidx : sig.idx ≤ exit.idx)
    (hexit : exit.outcome ≠ .timeExit → exit.idx ≤ j → exit' = exit)
    (ht : (if requireCompleteHorizon ∧ cutOff candles sig.idx holdBars exit.outcome then .ok none
      else (finalizeTrade sha256 candles sig.idx sig.side entry exit sig costs.pct
        (some (legacyFixtureManifest sha256)) (some costs.ledger)).map some) = .ok (some t))
    (hclose : ClosesBy sig j t) :
    (if requireCompleteHorizon ∧ cutOff candles' sig.idx holdBars exit'.outcome then .ok none
      else (finalizeTrade sha256 candles' sig.idx sig.side entry exit' sig costs.pct
        (some (legacyFixtureManifest sha256)) (some costs.ledger)).map some) = .ok (some t) := by
  split_ifs at ht with hcut
  · cases ht
  obtain rfl : finalTrade sha256 candles sig.idx sig.side entry exit sig costs = t := by
    rw [finalizeTrade_eq] at ht
    exact Option.some.inj (Except.ok.inj ht)
  obtain ⟨hout, hheld⟩ := hclose
  have hout : exit.outcome ≠ .timeExit := hout
  have hj : exit.idx ≤ j := by
    have hheld : sig.idx + (exit.idx - sig.idx) ≤ j := hheld
    omega
  obtain rfl := hexit hout hj
  have hcut' : ¬ (requireCompleteHorizon ∧ cutOff candles' sig.idx holdBars exit'.outcome) := by
    simp [cutOff, hout]
  rw [if_neg hcut', finalizeTrade_eq]
  simp only [finalTrade, Except.map, describeTrade_of_agree h hidx hj hout]

end

/-! ## The modes that do not look ahead -/

section
variable {sha256 : String → String} {candles candles' : List Candle} {j : ℕ} {costs : Costs}
  {requireCompleteHorizon : Bool} {sig : Signal} {stopPct takePct : ℚ} {t : Trade}

theorem baselineTrade_of_agree {holdBars : ℤ} (hlen : sig.idx + 1 < candles'.length)
    (h : candles.take (j + 1) = candles'.take (j + 1))
    (ht : baselineTrade sha256 candles holdBars stopPct takePct costs requireCompleteHorizon sig =
      .ok (some t)) (hclose : ClosesBy sig j t) :
    baselineTrade sha256 candles' holdBars stopPct takePct costs requireCompleteHorizon sig =
      .ok (some t) := by
  unfold baselineTrade at ht ⊢
  cases hw : holdingWindow candles sig.idx holdBars with
  | none => simp [hw] at ht
  | some w =>
    obtain ⟨cap, entry⟩ := w
    obtain ⟨hlt, hcapLen, -, -⟩ := holdingWindow_eq_some hw
    have hidx : sig.idx ≤ j := (Nat.le_add_right _ _).trans hclose.2
    obtain ⟨cap', hw', hcap⟩ := holdingWindow_of_agree h hidx hlen hw
    simp only [hw] at ht
    simp only [hw']
    refine exitTrade_of_agree h (exitOf_idx hlt) (fun hout hj => ?_) ht hclose
    exact (exitOf_of_agree h hcap hlt hcapLen hout hj (fun _ _ => rfl) fun _ _ _ _ _ _ => rfl).2

theorem moveStop_span {rule : ExitRule} {st : ScanState} (long : Bool) (entry : ℚ)
    (span span' : ℕ) (initialStop : Option ℚ) (water : ℚ)
    (h : rule ≠ .timeDecay ∨ stopPct ≤ 0 ∨ st.offset = 0) :
    moveStop rule long entry stopPct span initialStop water st =
      moveStop rule long entry stopPct span' initialStop water st := by
  cases rule with
  | timeDecay =>
    rcases h with h | h | h
    · exact absurd rfl h
    · have hnone : ∀ x : ℚ, level entry (stopPct * max 0 x) (!long) = none := fun x =>
        if_pos (mul_nonpos_of_nonpos_of_nonneg h (le_max_left _ _))
      simp only [moveStop, hnone]
    · simp [moveStop, h]
  | _ => rfl

theorem next_dynamicScanner {rule : ExitRule} {st : ScanState} (long : Bool) (entry : ℚ)
    (span span' : ℕ) (take : Option ℚ) (b : Candle)
    (h : rule ≠ .timeDecay ∨ stopPct ≤ 0 ∨ st.offset = 0) :
    (dynamicScanner rule long entry stopPct span take).next st b =
      (dynamicScanner rule long entry stopPct span' take).next st b := by
  simp only [dynamicScanner, moveStop_span long entry span span' _ _ h]

/-- A scan whose window is cut elsewhere passes through the same states, unless its rule
decays with the window and the window has more than two bars behind the entry. -/
theorem stateAt_dynamicScanner {rule : ExitRule} {long : Bool} {entry : ℚ} {take : Option ℚ}
    {span span' k i : ℕ} {st : ScanState} {l l' : List Candle}
    (h : rule ≠ .timeDecay ∨ stopPct ≤ 0 ∨ span = span' ∨ k ≤ 1) (hst : st.offset = 0)
    (hl : l.take (k + 1) = l'.take (k + 1)) (hi : i ≤ k) :
    (dynamicScanner rule long entry stopPct span' take).stateAt st l' i =
      (dynamicScanner rule long entry stopPct span take).stateAt st l i := by
  set S := dynamicScanner rule long entry stopPct span take
  set S' := dynamicScanner rule long entry stopPct span' take
  have hsame : (∀ st b, S'.next st b = S.next st b) → S'.stateAt st l' i = S.stateAt st l i := by
    intro hnext
    rw [Scanner.stateAt, show S'.next = S.next from funext₂ hnext]
    exact S.stateAt_of_prefix hl (by omega)
  rcases h with h | h | rfl | h
  · exact hsame fun _ _ => next_dynamicScanner long entry _ _ take _ (.inl h)
  · exact hsame fun _ _ => next_dynamicScanner long entry _ _ take _ (.inr (.inl h))
  · exact hsame fun _ _ => rfl
  · have hfirst : l'.take i = l.take i := by
      have := congrArg (List.take i) hl
      simpa [List.take_take, Nat.min_eq_left (show i ≤ k + 1 by omega)] using this.symm
    rw [Scanner.stateAt, Scanner.stateAt, hfirst]
    -- only the step over the entry bar comes before, and it does not use the window
    rcases hl1 : l.take i with _ | ⟨b, _ | ⟨b', rest⟩⟩
    · rfl
    · exact next_dynamicScanner long entry _ _ take _ (.inr (.inr hst))
    · have := congrArg List.length hl1
      simp only [List.length_take, List.length_cons] at this
      omega

theorem scanDynamicExit_of_agree {idx cap cap' : ℕ} {entry : ℚ} {side : String} {rule : ExitRule}
    {holdBars : ℤ} (h : candles.take (j + 1) = candles'.take (j + 1))
    (hcap : ∀ i ≤ j, i ≤ cap → i ≤ cap') (hlt : idx < cap) (hlen : cap < candles.length)
    (hhold : (cap : ℤ) ≤ idx + holdBars) (hhold' : (cap' : ℤ) ≤ idx + holdBars)
    (hfree : rule ≠ .timeDecay ∨ stopPct ≤ 0 ∨ holdBars ≤ 2)
    (hout : (scanDynamicExit candles idx cap entry side stopPct takePct rule).outcome ≠ .timeExit)
    (hj : (scanDynamicExit candles idx cap entry side stopPct takePct rule).idx ≤ j) :
    scanDynamicExit candles' idx cap' entry side stopPct takePct rule =
      scanDynamicExit candles idx cap entry side stopPct takePct rule := by
  refine (exitOf_of_agree h hcap hlt hlen hout hj ?_ ?_).2
  · exact fun _ _ => rfl
  intro k hk hk' hinit i hi
  refine stateAt_dynamicScanner ?_ rfl hinit hi
  rcases hfree with hrule | hstop | hshort
  · exact .inl hrule
  · exact .inr (.inl hstop)
  · refine .inr (.inr ?_)
    by_cases hk1 : k ≤ 1
    · exact .inr hk1
    · exact .inl (by omega)

/-- Two scans over windows that agree up to the exit of the one end in the same state. -/
theorem exit_and_last_of_agree {σ : Type} {S : Scanner σ Candle (ℚ × Outcome)} {s : σ}
    {idx cap cap' : ℕ} (h : candles.take (j + 1) = candles'.take (j + 1))
    (hcap : ∀ i ≤ j, i ≤ cap → i ≤ cap') (hlt : idx < cap) (hlen : cap < candles.length)
    (hout : (exitOf candles idx cap (S.run s (barsBetween candles idx cap))).outcome ≠ .timeExit)
    (hj : (exitOf candles idx cap (S.run s (barsBetween candles idx cap))).idx ≤ j) :
    exitOf candles' idx cap' (S.run s (barsBetween candles' idx cap')) =
        exitOf candles idx cap (S.run s (barsBetween candles idx cap)) ∧
      S.last s (barsBetween candles' idx cap') = S.last s (barsBetween candles idx cap) := by
  have hsame := exitOf_of_agree (S := S) h hcap hlt hlen hout hj (fun _ _ => rfl)
    fun k _ _ hinit i hi => S.stateAt_of_prefix hinit (by omega)
  refine ⟨hsame.2, ?_⟩
  obtain ⟨k, price, outcome, hrun, hex⟩ := exitOf_of_ne_timeExit hout
  have hk : idx + k ≤ cap := by
    have := S.lt_of_run hrun
    rw [length_barsBetween hlen] at this
    omega
  rw [hex] at hj
  rw [S.last_of_some hrun, S.last_of_some (hsame.1.trans hrun)]
  refine S.stateAt_of_prefix (k := k + 1) ?_ (by omega)
  rw [barsBetween_take _ hk, barsBetween_take _ (hcap _ hj hk)]
  exact drop_take_of_agree h (by dsimp only at hj; omega)

theorem partialDynamicTrade_of_agree {idx cap cap' : ℕ} {entry tp1Pct tp2Pct costPct : ℚ}
    {side : String} (h : candles.take (j + 1) = candles'.take (j + 1))
    (hcap : ∀ i ≤ j, i ≤ cap → i ≤ cap') (hlt : idx < cap) (hlen : cap < candles.length)
    (hout : (partialDynamicTrade candles idx cap entry side stopPct tp1Pct tp2Pct sig
      costPct).outcome ≠ .timeExit)
    (hj : idx + (partialDynamicTrade candles idx cap entry side stopPct tp1Pct tp2Pct sig
      costPct).barsHeld ≤ j) :
    partialDynamicTrade candles' idx cap' entry side stopPct tp1Pct tp2Pct sig costPct =
      partialDynamicTrade candles idx cap entry side stopPct tp1Pct tp2Pct sig costPct := by
  set S := partialScanner (isLong side) entry (level entry tp1Pct (isLong side))
    (level entry tp2Pct (isLong side)) with hS
  set start : PartialState := ⟨false, level entry stopPct !(isLong side)⟩ with hstart
  have hidx : idx ≤ (exitOf candles idx cap (S.run start (barsBetween candles idx cap))).idx :=
    exitOf_idx hlt
  have hout : (exitOf candles idx cap (S.run start (barsBetween candles idx cap))).outcome ≠
      .timeExit := hout
  have hj : (exitOf candles idx cap (S.run start (barsBetween candles idx cap))).idx ≤ j := by
    have hheld : idx + ((exitOf candles idx cap (S.run start (barsBetween candles idx cap))).idx -
      idx) ≤ j := hj
    omega
  -- the state at the exit says whether the first half was sold
  obtain ⟨hsame, hlast⟩ := exit_and_last_of_agree h hcap hlt hlen hout hj
  simp only [partialDynamicTrade, ← hS, ← hstart, hsame, hlast]
  rw [describeTrade_of_agree h hidx hj hout]

theorem bindPartialTrade_core {trade : TradeCore} {entry : ℚ} {side : String} {feesBps : ℚ}
    {slippageBps costPct : ℚ}
    (ht : bindPartialTrade sha256 trade entry side feesBps slippageBps costPct = .ok t) :
    t.toTradeCore = trade := by
  obtain ⟨reconciliation, -, ht⟩ := bind_eq_ok.1 ht
  by_cases hbad : 1 / 10 ^ 3 < |reconciliation.netReturnPct.getD 0 - trade.netPct|
  · rw [if_pos hbad] at ht
    cases ht
  rw [if_neg hbad] at ht
  obtain ⟨quantity, -, ht⟩ := bind_eq_ok.1 ht
  rw [← Except.ok.inj ht]

theorem dynamicTrade_of_agree {mode : DynamicMode} (hlen : sig.idx + 1 < candles'.length)
    (h : candles.take (j + 1) = candles'.take (j + 1))
    (hfree : mode.rule ≠ .timeDecay ∨ stopPct ≤ 0 ∨ mode.holdBars ≤ 2)
    (ht : dynamicTrade sha256 candles mode stopPct takePct costs requireCompleteHorizon sig =
      .ok (some t)) (hclose : ClosesBy sig j t) :
    dynamicTrade sha256 candles' mode stopPct takePct costs requireCompleteHorizon sig =
      .ok (some t) := by
  unfold dynamicTrade at ht ⊢
  cases hw : holdingWindow candles sig.idx mode.holdBars with
  | none => simp [hw] at ht
  | some w =>
    obtain ⟨cap, entry⟩ := w
    obtain ⟨hlt, hcapLen, hhold, -⟩ := holdingWindow_eq_some hw
    have hidx : sig.idx ≤ j := (Nat.le_add_right _ _).trans hclose.2
    obtain ⟨cap', hw', hcap⟩ := holdingWindow_of_agree h hidx hlen hw
    have hhold' := (holdingWindow_eq_some hw').2.2.1
    simp only [hw] at ht
    simp only [hw']
    cases hrule : mode.rule with
    | partialTake tp1Pct tp2Pct =>
      simp only [hrule] at ht ⊢
      split_ifs at ht with hcut
      · cases ht
      obtain ⟨t', ht', rfl⟩ : ∃ t', bindPartialTrade sha256 (partialDynamicTrade candles sig.idx cap
          entry sig.side stopPct tp1Pct tp2Pct sig costs.pct) entry sig.side costs.feesBps
            costs.slippageBps costs.pct = .ok t' ∧ t' = t := by
        revert ht
        cases bindPartialTrade sha256 (partialDynamicTrade candles sig.idx cap entry sig.side
          stopPct tp1Pct tp2Pct sig costs.pct) entry sig.side costs.feesBps costs.slippageBps
            costs.pct with
        | error e => exact fun ht => nomatch ht
        | ok t' => exact fun ht => ⟨t', rfl, Option.some.inj (Except.ok.inj ht)⟩
      have hcore := bindPartialTrade_core ht'
      have hout := hclose.1
      have hj := hclose.2
      rw [show t'.outcome = t'.toTradeCore.outcome from rfl, hcore] at hout
      rw [show t'.barsHeld = t'.toTradeCore.barsHeld from rfl, hcore] at hj
      rw [partialDynamicTrade_of_agree h hcap hlt hcapLen hout hj, if_neg (by simp [cutOff, hout]),
        ht']
      rfl
    | _ =>
      simp only [hrule] at ht ⊢
      refine exitTrade_of_agree h (exitOf_idx hlt) (fun hout hj => ?_) ht hclose
      rw [hrule] at hfree
      exact scanDynamicExit_of_agree h hcap hlt hcapLen hhold hhold' hfree hout hj

end

theorem rule_eq_timeDecay {params : Params} {exitMode : String}
    (h : (dynamicModeParams params exitMode).rule = .timeDecay) : exitMode = "time_decay" := by
  simp only [dynamicModeParams] at h
  split_ifs at h <;> assumption

theorem tradeOf_of_agree {sha256 : String → String} {candles candles' : List Candle} {j : ℕ}
    {params : Params} {costs : Costs} {requireCompleteHorizon : Bool} {sig : Signal} {t : Trade}
    (hfree : exitModeOf params ≠ "time_decay" ∨ params.stopPct.getD 0 ≤ 0 ∨
      (dynamicModeParams params (exitModeOf params)).holdBars ≤ 2)
    (hlen : sig.idx + 1 < candles'.length) (h : candles.take (j + 1) = candles'.take (j + 1))
    (ht : tradeOf sha256 candles params costs requireCompleteHorizon sig = .ok (some t))
    (hclose : ClosesBy sig j t) :
    tradeOf sha256 candles' params costs requireCompleteHorizon sig = .ok (some t) := by
  unfold tradeOf at ht ⊢
  by_cases hmode : exitModeOf params ≠ "" ∧ exitModeOf params ≠ "baseline"
  · rw [if_pos hmode] at ht ⊢
    refine dynamicTrade_of_agree hlen h ?_ ht hclose
    exact hfree.imp_left fun hne hrule => hne (rule_eq_timeDecay hrule)
  · rw [if_neg hmode] at ht ⊢
    exact baselineTrade_of_agree hlen h ht hclose

/-! ## A stop that decays with the window -/

section
variable {long : Bool} {price pct stopPct : ℚ} {span : ℕ} {take : Option ℚ}

def flatBar (price : ℚ) : Candle := ⟨0, price, price, price, price⟩

/-- Flat bars up to the one after the entry, a bar that reaches 5 below and above the price,
and what follows it. -/
def decayBars (idx : ℕ) (price : ℚ) (rest : List Candle) : List Candle :=
  List.replicate (idx + 2) (flatBar price) ++ ⟨0, price, price + 5, price - 5, price⟩ :: rest

theorem stopTouched_flatBar (hprice : 0 < price) :
    (level price pct !long).filter (stopTouched long (flatBar price)) = none := by
  rw [Option.filter_eq_none_iff]
  intro stop hstop
  unfold level at hstop
  split_ifs at hstop with hpct hlong
  all_goals
    have hpos := mul_pos hprice (not_le.1 hpct)
    obtain rfl := Option.some.inj hstop
    cases long <;> simp_all [stopTouched, flatBar]

theorem takeTouched_flatBar (hprice : 0 < price) :
    (level price pct long).filter (takeTouched long (flatBar price)) = none := by
  rw [Option.filter_eq_none_iff]
  intro take htake
  unfold level at htake
  split_ifs at htake with hpct hlong
  all_goals
    have hpos := mul_pos hprice (not_le.1 hpct)
    obtain rfl := Option.some.inj htake
    cases long <;> simp_all [takeTouched, flatBar]

/-- The stop at the third bar is the one that the second bar decayed. -/
theorem run_decay {stop takePct : ℚ} {rest : List Candle} (hprice : 0 < price)
    (hstop : level price (stopPct * max 0 (1 - 1 / (span : ℚ))) (!long) = some stop)
    (hlow : price - 5 ≤ stop) (hhigh : stop ≤ price + 5) :
    (dynamicScanner .timeDecay long price stopPct span (level price takePct long)).run
        { stop := level price stopPct !long, water := price }
        (flatBar price :: flatBar price :: ⟨0, price, price + 5, price - 5, price⟩ :: rest) =
      some (2, stop, .stop) := by
  set S := dynamicScanner .timeDecay long price stopPct span (level price takePct long)
  have hflat : ∀ pct water offset, S.exit? { stop := level price pct !long, water, offset }
      (flatBar price) = none := by
    intro pct water offset
    simp only [S, dynamicScanner, stopTouched_flatBar hprice, takeTouched_flatBar hprice,
      Option.map_none]
  have hnext : ∀ pct offset, S.next { stop := level price pct !long, water := price, offset }
      (flatBar price) = ⟨level price (stopPct * max 0 (1 - (offset : ℚ) / span)) !long, price,
        offset + 1⟩ := by
    intro pct offset
    cases long <;> simp [S, dynamicScanner, moveStop, flatBar]
  have htouch : S.exit? { stop := some stop, water := price, offset := 2 }
      ⟨0, price, price + 5, price - 5, price⟩ = some (stop, .stop) := by
    have : stopTouched long ⟨0, price, price + 5, price - 5, price⟩ stop = true := by
      cases long <;> simp [stopTouched, hlow, hhigh]
    simp [S, dynamicScanner, Option.filter_some, this, stopOutcome]
  have hstop' : level price (stopPct * max 0 (1 - ((0 + 1 : ℕ) : ℚ) / span)) (!long) =
      some stop := by simpa using hstop
  rw [Scanner.run, hflat, hnext, Scanner.run, hflat, hnext, Scanner.run, hstop', htouch]
  rfl

theorem drop_decayBars (idx : ℕ) (price : ℚ) (rest : List Candle) :
    (decayBars idx price rest).drop idx =
      flatBar price :: flatBar price :: ⟨0, price, price + 5, price - 5, price⟩ :: rest := by
  rw [decayBars, List.replicate_add, List.append_assoc, List.drop_left' (by simp)]
  rfl

/-- The trade of a signal over these bars leaves at the decayed stop. -/
theorem tradeOf_decayBars {sha256 : String → String} {params : Params} {costs : Costs}
    {requireCompleteHorizon : Bool} {sig : Signal} {stop : ℚ} {rest : List Candle}
    (hmode : exitModeOf params = "time_decay")
    (hhold : 3 ≤ (dynamicModeParams params (exitModeOf params)).holdBars) (hprice : 0 < price)
    (hrest : rest.length ≤ 1)
    (hstop : level price (params.stopPct.getD 0 * max 0 (1 - 1 / ((2 + rest.length : ℕ) : ℚ)))
      (!isLong sig.side) = some stop)
    (hlow : price - 5 ≤ stop) (hhigh : stop ≤ price + 5) :
    tradeOf sha256 (decayBars sig.idx price rest) params costs requireCompleteHorizon sig =
      .ok (some (finalTrade sha256 (decayBars sig.idx price rest) sig.idx sig.side price
        ⟨stop, .stop, sig.idx + 2⟩ sig costs)) := by
  have hlength : (decayBars sig.idx price rest).length = sig.idx + 3 + rest.length := by
    simp only [decayBars, List.length_append, List.length_replicate, List.length_cons]
    omega
  have hentry : barAt (decayBars sig.idx price rest) sig.idx = flatBar price := by
    have := congrArg (·[0]?) (drop_decayBars sig.idx price rest)
    simp only [List.getElem?_drop, Nat.add_zero, List.getElem?_cons_zero] at this
    rw [barAt, List.getD_eq_getElem?_getD, this]
    rfl
  have hrule : (dynamicModeParams params (exitModeOf params)).rule = .timeDecay := by
    rw [hmode]
    simp [dynamicModeParams]
  have hwindow : holdingWindow (decayBars sig.idx price rest) sig.idx
      (dynamicModeParams params (exitModeOf params)).holdBars =
        some (sig.idx + 2 + rest.length, price) := by
    simp only [holdingWindow, hentry, hlength]
    rw [if_neg (by omega), if_neg (by simpa [flatBar] using hprice)]
    simp only [flatBar, Option.some.injEq, Prod.mk.injEq, and_true]
    omega
  have hbars : barsBetween (decayBars sig.idx price rest) sig.idx
      (sig.idx + 2 + rest.length) =
        flatBar price :: flatBar price :: ⟨0, price, price + 5, price - 5, price⟩ :: rest := by
    rw [barsBetween, drop_decayBars, List.take_of_length_le]
    simp only [List.length_cons]
    omega
  have hspan : max 1 (sig.idx + 2 + rest.length - sig.idx) = 2 + rest.length := by omega
  have hexit : scanDynamicExit (decayBars sig.idx price rest) sig.idx
      (sig.idx + 2 + rest.length) price sig.side (params.stopPct.getD 0) (params.takePct.getD 0)
        .timeDecay = ⟨stop, .stop, sig.idx + 2⟩ := by
    simp only [scanDynamicExit, hbars, hspan, run_decay hprice hstop hlow hhigh]
    rfl
  unfold tradeOf
  rw [if_pos (by simp [hmode])]
  simp only [dynamicTrade, hwindow, hrule, hexit, finalizeTrade_eq]
  rw [if_neg (by simp [cutOff])]
  rfl

end

/-- With a window of three bars and more the end of the data moves the decayed stop. -/
theorem looksAhead_of_timeDecay {sha256 : String → String} {params : Params} {costs : Costs}
    {requireCompleteHorizon : Bool} {sig : Signal} (hmode : exitModeOf params = "time_decay")
    (hstop : 0 < params.stopPct.getD 0)
    (hhold : 3 ≤ (dynamicModeParams params (exitModeOf params)).holdBars) :
    ¬ NoLookAhead sha256 params costs requireCompleteHorizon sig := by
  intro hcausal
  set pct := params.stopPct.getD 0 with hpct
  -- at this price a third of the decay is worth one unit
  set price : ℚ := 600 / pct with hprice
  have hpos : 0 < price := by positivity
  set side : ℚ := if isLong sig.side then -1 else 1 with hside
  have hlevel : ∀ share : ℚ, 0 < share →
      level price (pct * share) (!isLong sig.side) = some (price + side * 6 * share) := by
    intro share hshare
    have hne : pct ≠ 0 := hstop.ne'
    rw [level, if_neg (not_le.2 (mul_pos hstop hshare))]
    cases hlong : isLong sig.side <;> simp only [hside, hlong] <;> norm_num [hprice] <;>
      field_simp <;> ring
  have hbound : ∀ share : ℚ, 0 ≤ share → share ≤ 5 / 6 →
      price - 5 ≤ price + side * 6 * share ∧ price + side * 6 * share ≤ price + 5 := by
    intro share h0 h1
    cases hlong : isLong sig.side <;> simp only [hside, hlong] <;> norm_num <;>
      constructor <;> linarith
  have htrade : ∀ rest : List Candle, rest.length ≤ 1 →
      tradeOf sha256 (decayBars sig.idx price rest) params costs requireCompleteHorizon sig =
        .ok (some (finalTrade sha256 (decayBars sig.idx price rest) sig.idx sig.side price
          ⟨price + side * 6 * (1 - 1 / ((2 + rest.length : ℕ) : ℚ)), .stop, sig.idx + 2⟩ sig
            costs)) := by
    intro rest hrest
    have hshare : 0 < 1 - 1 / ((2 + rest.length : ℕ) : ℚ) ∧
        1 - 1 / ((2 + rest.length : ℕ) : ℚ) ≤ 5 / 6 := by
      rcases Nat.le_one_iff_eq_zero_or_eq_one.1 hrest with h | h <;> rw [h] <;> norm_num
    refine tradeOf_decayBars hmode hhold hpos hrest ?_ (hbound _ hshare.1.le hshare.2).1
      (hbound _ hshare.1.le hshare.2).2
    rw [max_eq_right hshare.1.le]
    exact hlevel _ hshare.1
  obtain ⟨t', ht', hsame⟩ := hcausal (decayBars sig.idx price []) (decayBars sig.idx price
    [flatBar price]) (sig.idx + 2) _ (by simp [decayBars]) (by simp [decayBars])
    (by simp [decayBars, List.take_append]) (htrade [] (by simp)) ⟨by simp [finalTrade,
      describeTrade], by simp [finalTrade, describeTrade]⟩
  rw [htrade [flatBar price] (by simp)] at ht'
  obtain rfl := Option.some.inj (Except.ok.inj ht')
  have hexit : roundTo 10 (price + side * 6 * (1 - 1 / ((2 + 1 : ℕ) : ℚ))) =
      roundTo 10 (price + side * 6 * (1 - 1 / ((2 + 0 : ℕ) : ℚ))) := hsame.2.1
  have h₂ := abs_le.1 (abs_roundTo_sub_le 10 (price + side * 6 * (1 - 1 / ((2 + 0 : ℕ) : ℚ))))
  have h₃ := abs_le.1 (abs_roundTo_sub_le 10 (price + side * 6 * (1 - 1 / ((2 + 1 : ℕ) : ℚ))))
  rw [hexit] at h₃
  cases hlong : isLong sig.side <;> simp only [hside, hlong] at h₂ h₃ <;> norm_num at h₂ h₃ <;>
    linarith

/-- No mode looks behind its exit, except `time_decay` where a stop can decay with the window:
at a positive stop distance and three bars to hold or more. -/
theorem noLookAhead_iff (sha256 : String → String) (params : Params) (costs : Costs)
    (requireCompleteHorizon : Bool) (sig : Signal) :
    NoLookAhead sha256 params costs requireCompleteHorizon sig ↔
      exitModeOf params ≠ "time_decay" ∨ params.stopPct.getD 0 ≤ 0 ∨
        (dynamicModeParams params (exitModeOf params)).holdBars ≤ 2 := by
  constructor
  · intro hcausal
    by_contra hdecay
    push Not at hdecay
    exact looksAhead_of_timeDecay hdecay.1 hdecay.2.1 (by omega) hcausal
  · intro hfree candles candles' j t _ hlen h ht hclose
    exact ⟨t, tradeOf_of_agree hfree hlen h ht hclose, rfl, rfl, rfl, rfl, rfl, rfl⟩

/-- A stop of 2 percent that decays over three bars. -/
theorem timeDecay_looks_ahead :
    ¬ NoLookAhead Sha256.sha256
      { exitMode := some "time_decay", holdBars := some 3, stopPct := some 2 } ⟨5, 2⟩ false
      ⟨0, "long", none, none⟩ :=
  looksAhead_of_timeDecay (by decide +kernel) (by decide +kernel) (by decide +kernel)

end ResearchLab.Simulation
