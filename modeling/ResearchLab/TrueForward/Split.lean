import Mathlib
import ResearchLab.Foundation.Sha256
import ResearchLab.TrueForward.Collect

/-!
# Passes at any time

What a candidate has collected is a function of the candles that are present: where the simulator
reads no bar behind an exit and holds as long as the collector waits, the splitting of the growth
into passes does not show.
-/
namespace ResearchLab.TrueForward
open Foundation Simulation

variable {env : Collector} {row : Row} {candles candles' : List Candle} {sig : Signal}

/-! ## The assumptions -/

/-- Well-formed bars at ascending timestamps. -/
structure ValidCandles (candles : List Candle) : Prop where
  wellFormed : ∀ bar ∈ candles, WellFormed bar
  ts_pos : ∀ bar ∈ candles, 0 < bar.ts
  ascending : candles.Pairwise fun a b => a.ts < b.ts

/-- The signals at a bar depend on the bars up to it. -/
structure CausalSignals (generate : List Candle → List Signal) : Prop where
  idx_lt : ∀ candles, ∀ sig ∈ generate candles, sig.idx < candles.length
  side : ∀ candles, ∀ sig ∈ generate candles, sig.side = "long" ∨ sig.side = "short"
  causal : ∀ candles candles' i, candles.take (i + 1) = candles'.take (i + 1) →
    (generate candles).filter (fun sig => sig.idx = i) =
      (generate candles').filter fun sig => sig.idx = i

/-- The simulator of a candidate as a run over windows. -/
def rowRun (env : Collector) (row : Row) : WindowRun ExitModeTrade :=
  match gridMode env row with
  | some mode => modeRun env.sha256 (rowParams env row) mode costs
  | none => (tradeRun env.sha256 (rowParams env row) costs).map .single

/-- No stop decays with the window, and the collector waits as long as the simulator holds. -/
def Steady (env : Collector) (row : Row) : Prop :=
  match gridMode env row with
  | some mode => RuleCausal (some mode.rule) ((rowParams env row).stopPct.getD 0)
      (mode.hold (rowParams env row))
  | none => RuleCausal (scanRule (rowParams env row)) ((rowParams env row).stopPct.getD 0)
      (holdBarsOf (rowParams env row)) ∧
        holdBarsOf (rowParams env row) = (rowParams env row).holdBars.getD 5

/-- The simulator sells in two halves. -/
def sellsHalves (env : Collector) (row : Row) : Bool :=
  match gridMode env row with
  | some mode => match mode.rule with
    | .partialTake _ _ => true
    | _ => false
  | none => (partialTakes (rowParams env row)).isSome

/-- The windows of the signals have prices that are large enough for the roundings of the
validator. -/
def LargeWindows (env : Collector) (row : Row) (candles : List Candle) : Prop :=
  ∀ sig ∈ env.generateSignals candles row.family (rowParams env row), ∀ cap entry,
    holdingWindow candles sig.idx (collectHold env row) = some (cap, entry) →
    LargePrices (sellsHalves env row) costs (barsBetween candles sig.idx cap) entry

/-- The validator accepts the trades of the signals. -/
def Accepted (env : Collector) (row : Row) (candles : List Candle) : Prop :=
  ∀ sig ∈ env.generateSignals candles row.family (rowParams env row), ∀ t,
    (rowRun env row).trade candles sig = .ok (some t) → validateTrade env t = .ok ()

/-! ## The simulator -/

theorem rowRun_causal (h : Steady env row) : (rowRun env row).Causal := by
  rw [Steady] at h
  rw [rowRun]
  cases hmode : gridMode env row with
  | some mode =>
    rw [hmode] at h
    exact modeRun_causal h
  | none =>
    rw [hmode] at h
    exact (tradeRun_causal h.1).map _

theorem rowRun_hold (h : Steady env row) : (rowRun env row).hold = collectHold env row := by
  rw [Steady] at h
  rw [rowRun, collectHold]
  cases hmode : gridMode env row with
  | some mode => exact modeRun_hold
  | none =>
    rw [hmode] at h
    rw [WindowRun.map_hold, tradeRun_hold]
    exact h.2

theorem costs_nonneg : 0 ≤ costs.pct := by
  norm_num [costs, Costs.pct, feesBps, slipBps]

theorem rowRun_ok (hbars : ∀ bar ∈ candles, WellFormed bar)
    (hside : sig.side = "long" ∨ sig.side = "short") :
    ∃ o, (rowRun env row).trade candles sig = .ok o := by
  refine WindowRun.trade_ok fun cap entry hw => ?_
  rw [rowRun] at hw ⊢
  cases hmode : gridMode env row with
  | some mode =>
    rw [hmode] at hw
    rw [modeRun_hold] at hw
    exact modeRun_build_ok hbars hside costs_nonneg hw
  | none =>
    rw [hmode] at hw
    rw [WindowRun.map_hold, tradeRun_hold] at hw
    obtain ⟨t, ht⟩ := tradeRun_build_ok hbars hside costs_nonneg hw
    refine ⟨.single t, ?_⟩
    exact congrArg (Except.map ExitModeTrade.single) ht

theorem rowRun_reading {t : ExitModeTrade} (h : (rowRun env row).trade candles sig = .ok (some t)) :
    t.reading.Of candles sig := by
  obtain ⟨cap, entry, -, hbuild⟩ := WindowRun.trade_eq_some h
  rw [rowRun] at hbuild
  cases hmode : gridMode env row with
  | some mode =>
    rw [hmode] at hbuild
    exact reading_modeRun hbuild
  | none =>
    rw [hmode] at hbuild
    obtain ⟨t', ht', rfl⟩ := map_eq_ok.1 hbuild
    exact reading_tradeRun ht'

theorem rowRun_stored : (rowRun env row).trade candles sig.stored =
    (rowRun env row).trade candles sig := by
  rw [rowRun]
  cases gridMode env row with
  | some mode => exact modeRun_stored
  | none => rw [WindowRun.map_trade, WindowRun.map_trade, tradeRun_stored]

/-- The trade of a signal on the candles, if it has one. -/
def outcomeOf (env : Collector) (row : Row) (candles : List Candle) (sig : Signal) :
    Option ExitModeTrade :=
  match (rowRun env row).trade candles sig with
  | .ok o => o
  | .error _ => none

theorem tradesOf_map {α β : Type} (f : α → β) (trade : Signal → Except String (Option α))
    (signals : List Signal) : tradesOf (fun sig => (trade sig).map (Option.map f)) signals =
      (tradesOf trade signals).map (List.map f) := by
  induction signals with
  | nil => rfl
  | cons sig rest ih =>
    simp only [tradesOf, ih]
    rcases trade sig with e | _ | t
    · rfl
    · rfl
    · cases tradesOf trade rest <;> rfl

theorem outcomeOf_eq {o : Option ExitModeTrade} (h : (rowRun env row).trade candles sig = .ok o) :
    outcomeOf env row candles sig = o := by
  rw [outcomeOf, h]

theorem trade_eq_outcomeOf (hbars : ∀ bar ∈ candles, WellFormed bar)
    (hside : sig.side = "long" ∨ sig.side = "short") :
    (rowRun env row).trade candles sig = .ok (outcomeOf env row candles sig) := by
  obtain ⟨o, ho⟩ := rowRun_ok hbars hside
  rw [ho, outcomeOf_eq ho]

theorem simulate_eq (hbars : ∀ bar ∈ candles, WellFormed bar) {signals : List Signal}
    (hside : ∀ sig ∈ signals, sig.side = "long" ∨ sig.side = "short") :
    simulate env row candles signals = .ok (signals.filterMap (outcomeOf env row candles)) := by
  have htrade : ∀ sig ∈ signals, (rowRun env row).trade candles sig =
      .ok (outcomeOf env row candles sig) := fun sig hsig => trade_eq_outcomeOf hbars (hside sig hsig)
  by_cases hnil : signals = []
  · rw [simulate, if_pos hnil, hnil, List.filterMap_nil]
  rw [simulate, if_neg hnil]
  rw [rowRun] at htrade
  cases hmode : gridMode env row with
  | some mode =>
    rw [hmode] at htrade
    refine tradesOf_eq_ok fun sig hsig => ?_
    rw [← htrade sig hsig]
    refine exitModeTrade_eq_run fun cap entry tp1Pct tp2Pct _ hw => ?_
    obtain ⟨r, hr, -⟩ := recordPartial_eq _ _ _ hbars hw (hside sig hsig) costs_nonneg
    exact ⟨r, hr⟩
  | none =>
    rw [hmode] at htrade
    simp only [simulateTrades]
    rw [← tradesOf_map]
    refine tradesOf_eq_ok fun sig hsig => ?_
    rw [tradeOf_eq_run, ← htrade sig hsig, WindowRun.map_trade]

/-! ## The validator -/

/-- The evidence of a bound record is that of a partial trade. -/
theorem validate_boundRecord {r : PartialRecord} {entry : ℚ} {fills : List Fill}
    (hside : sig.side = "long" ∨ sig.side = "short") (hentry : 0 < entry)
    (hunit : UnitFills (costs.pct * 100) fills) (hdeclares : r.Declares sig.side entry costs fills)
    (h : FillsReconcile sig.side entry (meanPrice fills) costs) :
    validateTrade env (.scaledOut (boundRecord env.sha256 r costs fills)) = .ok () := by
  have hevidence : partialEvidence (boundRecord env.sha256 r costs fills) = boundTrade env.sha256
      (partialEvidence (boundRecord env.sha256 r costs fills)).toTradeCore entry sig.side fills
        costs := by
    simp only [partialEvidence, boundTrade, boundRecord, hdeclares.reconciliation_eq]
  rw [validateTrade, hevidence, validate_boundTrade_iff hentry hside costs_nonneg hunit
    (congrArg some hdeclares.grossPct_eq) hdeclares.netPct_eq]
  exact h

/-- The validator accepts what a mode of the grid makes of a window with large prices. -/
theorem validate_modeRun {mode : ExitMode} (hmode : gridMode env row = some mode)
    (hbars : ∀ bar ∈ candles, WellFormed bar) (hside : sig.side = "long" ∨ sig.side = "short")
    {cap : ℕ} {entry : ℚ} {t : ExitModeTrade}
    (hw : holdingWindow candles sig.idx (mode.hold (rowParams env row)) = some (cap, entry))
    (hlarge : LargePrices (sellsHalves env row) costs (barsBetween candles sig.idx cap) entry)
    (ht : (modeRun env.sha256 (rowParams env row) mode costs).build candles sig cap entry = .ok t) :
    validateTrade env t = .ok () := by
  obtain ⟨hidx, hcap, -, hpos⟩ := holdingWindow_eq_some hw
  have hentry := holdingWindow_inRange hbars hw
  cases hrule : mode.rule with
  | partialTake tp1Pct tp2Pct =>
    obtain ⟨r, hr, hdeclares⟩ := modeRun_build_partial hbars hside costs_nonneg hw hrule
    obtain rfl := Except.ok.inj (hr.symm.trans ht)
    obtain ⟨hprice, hfirst⟩ := partialExit_prices ((rowParams env row).stopPct.getD 0) tp1Pct tp2Pct
      hbars hw
    obtain ⟨hlow, hroom⟩ := hlarge.of_inRange (meanPrice_inRange hprice hfirst)
    have hhalves : sellsHalves env row = true := by simp only [sellsHalves, hmode, hrule]
    exact validate_boundRecord hside hpos (unitFills_exitFills _ _ _ hbars hw _) hdeclares
      (fillsReconcile_of_room hpos (lt_trans (by norm_num) hlow) hroom costs_nonneg
        (hlarge.2 hhalves))
  | _ =>
    rw [modeRun_build_single (by simp [hrule])] at ht
    obtain rfl := Except.ok.inj ht
    obtain ⟨hlow, hroom⟩ := hlarge.of_inRange (scanDynamicExit_inRange hbars hidx.le hcap hentry)
    exact (validate_finalTrade_iff hside).2 (pricesReconcile_of_room hpos hlow hroom)

/-- It accepts what `simulate_trades` makes of a window with large prices. -/
theorem validate_tradeRun (hmode : gridMode env row = none)
    (hbars : ∀ bar ∈ candles, WellFormed bar) (hside : sig.side = "long" ∨ sig.side = "short")
    (hlarge : ∀ cap entry,
      holdingWindow candles sig.idx (holdBarsOf (rowParams env row)) = some (cap, entry) →
      LargePrices (sellsHalves env row) costs (barsBetween candles sig.idx cap) entry)
    {t : Trade} (ht : (tradeRun env.sha256 (rowParams env row) costs).trade candles sig =
      .ok (some t)) :
    validateTrade env (.single t) = .ok () := by
  have hhalves : sellsHalves env row = (partialTakes (rowParams env row)).isSome := by
    simp only [sellsHalves, hmode]
  rw [hhalves] at hlarge
  obtain ⟨o, ho, haccepted⟩ := signal_accepted_iff env.sha256 (rowParams env row) true hbars hside
    costs_nonneg
  rw [tradeOf_eq_run, ht] at ho
  obtain rfl := Except.ok.inj ho
  exact haccepted.2 (fun cap entry hw _ => reconciles_of_large hbars costs_nonneg hw
    (hlarge cap entry hw)) t rfl

/-- Where the collector waits as long as the simulator holds, its windows are the simulator's. -/
theorem accepted_of_large (hsteady : Steady env row) (hbars : ∀ bar ∈ candles, WellFormed bar)
    (hside : ∀ sig ∈ env.generateSignals candles row.family (rowParams env row),
      sig.side = "long" ∨ sig.side = "short")
    (hlarge : LargeWindows env row candles) : Accepted env row candles := by
  intro sig hsig t ht
  have hlarge := hlarge sig hsig
  rw [← rowRun_hold hsteady] at hlarge
  cases hmode : gridMode env row with
  | some mode =>
    obtain ⟨cap, entry, hw, hbuild⟩ := WindowRun.trade_eq_some ht
    have hlarge := hlarge cap entry hw
    simp only [rowRun, hmode, modeRun_hold] at hw hbuild
    exact validate_modeRun hmode hbars (hside sig hsig) hw hlarge hbuild
  | none =>
    simp only [rowRun, hmode, WindowRun.map_trade, WindowRun.map_hold, tradeRun_hold] at ht hlarge
    obtain ⟨o, ho, hmap⟩ := map_eq_ok.1 ht
    obtain ⟨t', rfl, rfl⟩ := Option.map_eq_some_iff.1 hmap
    exact validate_tradeRun hmode hbars (hside sig hsig) hlarge ho

/-! ## What has been collected -/

/-- The signals behind the boundary, the last of each bar and side. -/
def forwardSignals (env : Collector) (row : Row) (candles : List Candle) : List Signal :=
  lastByKey (keyOf candles) ((env.generateSignals candles row.family (rowParams env row)).filter
    fun sig => row.boundaryTs < (barAt candles sig.idx).ts)

/-- There is no trade yet and the window reaches behind the data. -/
def isPending (env : Collector) (row : Row) (candles : List Candle) (sig : Signal) : Bool :=
  (outcomeOf env row candles sig).isNone && decide ((candles.length : ℤ) ≤ sig.idx + collectHold env row)

def countedIn (env : Collector) (row : Row) (candles : List Candle) : List ExitModeTrade :=
  (forwardSignals env row candles).filterMap (outcomeOf env row candles)

/-- The row with these trades counted. -/
def Row.counting (row : Row) (trades : List ExitModeTrade) : Row :=
  { row with
    forwardTrades := row.forwardTrades + trades.length
    forwardNetSum := row.forwardNetSum + (trades.map fun t => t.reading.netPct).sum
    forwardMfeSum := row.forwardMfeSum + (trades.map fun t => t.reading.mfePct).sum
    forwardMaeSum := row.forwardMaeSum + (trades.map fun t => t.reading.maePct).sum
    forwardTpBeforeSl := row.forwardTpBeforeSl + trades.countP fun t => t.reading.tpBeforeSl }

/-- The row after the passes up to these candles, in whatever way they were split. -/
def collected (env : Collector) (row : Row) (candles : List Candle) : Row :=
  { row.counting (countedIn env row candles) with
    lastCollectedTs := lastTs candles
    status := if lastTs candles = row.boundaryTs then row.status
      else if matureTrades ≤ row.forwardTrades + (countedIn env row candles).length then .matured
      else .collecting
    pendingSignals := ((forwardSignals env row candles).filter (isPending env row candles)).map
      (pendingOf candles) }

/-! ## The bars -/

theorem barAt_eq_getElem {i : ℕ} (hi : i < candles.length) : barAt candles i = candles[i] :=
  List.getD_eq_getElem _ _ hi

theorem barAt_grown (hpre : candles <+: candles') {i : ℕ} (hi : i < candles.length) :
    barAt candles' i = barAt candles i :=
  barAt_of_agree (WindowRun.take_of_grown hpre (show i + 1 ≤ candles.length by omega)) le_rfl

theorem lastTs_eq (h : candles ≠ []) : lastTs candles = (barAt candles (candles.length - 1)).ts := by
  have hpos := List.length_pos_iff.2 h
  rw [lastTs, List.getLast?_eq_getElem?, List.getElem?_eq_getElem (by omega),
    barAt_eq_getElem (by omega)]
  rfl

namespace ValidCandles

theorem of_prefix (h : ValidCandles candles') (hpre : candles <+: candles') :
    ValidCandles candles where
  wellFormed bar hbar := h.wellFormed bar (hpre.subset hbar)
  ts_pos bar hbar := h.ts_pos bar (hpre.subset hbar)
  ascending := h.ascending.sublist hpre.sublist

theorem ts_lt (h : ValidCandles candles) {i j : ℕ} (hij : i < j) (hj : j < candles.length) :
    (barAt candles i).ts < (barAt candles j).ts := by
  have := List.pairwise_iff_getElem.1 h.ascending i j (hij.trans hj) hj hij
  rwa [barAt_eq_getElem (hij.trans hj), barAt_eq_getElem hj]

theorem ts_inj (h : ValidCandles candles) {i j : ℕ} (hi : i < candles.length)
    (hj : j < candles.length) (heq : (barAt candles i).ts = (barAt candles j).ts) : i = j := by
  rcases lt_trichotomy i j with hlt | rfl | hgt
  · exact absurd heq (h.ts_lt hlt hj).ne
  · rfl
  · exact absurd heq.symm (h.ts_lt hgt hi).ne

theorem ts_le_lastTs (h : ValidCandles candles) {i : ℕ} (hi : i < candles.length) :
    (barAt candles i).ts ≤ lastTs candles := by
  rw [lastTs_eq (List.length_pos_iff.1 (by omega))]
  rcases (show i ≤ candles.length - 1 by omega).lt_or_eq with hlt | heq
  · exact (h.ts_lt hlt (by omega)).le
  · rw [heq]

/-- Bars behind a prefix are newer than its last one. -/
theorem lastTs_lt (h : ValidCandles candles') (hpre : candles <+: candles') {i : ℕ}
    (hi : candles.length ≤ i) (hi' : i < candles'.length) : lastTs candles < (barAt candles' i).ts := by
  by_cases hnil : candles = []
  · rw [hnil]
    exact h.ts_pos _ (barAt_mem hi')
  · have hpos := List.length_pos_iff.2 hnil
    rw [lastTs_eq hnil, ← barAt_grown hpre (by omega)]
    exact h.ts_lt (by omega) hi'

theorem lastTs_pos (h : ValidCandles candles) (hne : candles ≠ []) : 0 < lastTs candles := by
  have hpos := List.length_pos_iff.2 hne
  rw [lastTs_eq hne]
  exact h.ts_pos _ (barAt_mem (by omega))

/-- The candles of a prefix are those up to its last timestamp. -/
theorem ts_le_iff (h : ValidCandles candles') (hpre : candles <+: candles') {i : ℕ}
    (hi : i < candles'.length) : (barAt candles' i).ts ≤ lastTs candles ↔ i < candles.length := by
  constructor
  · intro hle
    by_contra hge
    exact absurd (h.lastTs_lt hpre (not_lt.1 hge) hi) (not_lt.2 hle)
  · intro hlt
    rw [barAt_grown hpre hlt]
    exact (h.of_prefix hpre).ts_le_lastTs hlt

/-- No bar is newer than the last one of a prefix exactly when there is none behind it. -/
theorem new_bars_iff (h : ValidCandles candles') (hpre : candles <+: candles') :
    (∃ bar ∈ candles', lastTs candles < bar.ts) ↔ candles ≠ candles' := by
  constructor
  · rintro ⟨bar, hbar, hlt⟩ rfl
    obtain ⟨i, hi, rfl⟩ := List.getElem_of_mem hbar
    rw [← barAt_eq_getElem hi] at hlt
    exact absurd (h.ts_le_lastTs hi) (not_le.2 hlt)
  · intro hne
    have hlen : candles.length < candles'.length :=
      hpre.length_le.lt_of_ne fun heq => hne (hpre.eq_of_length heq)
    exact ⟨_, barAt_mem hlen, h.lastTs_lt hpre le_rfl hlen⟩

end ValidCandles

/-! ## The signals of a pass -/

theorem keyOf_grown (hpre : candles <+: candles') (hidx : sig.idx < candles.length) :
    keyOf candles' sig = keyOf candles sig := by
  rw [keyOf, keyOf, barAt_grown hpre hidx]

theorem keyOf_stored : keyOf candles sig.stored = keyOf candles sig := rfl

theorem getLast?_eq_of_forall_eq {α : Type} {l : List α} {a : α} (hmem : a ∈ l)
    (h : ∀ b ∈ l, b = a) : l.getLast? = some a := by
  have hne : l ≠ [] := List.ne_nil_of_mem hmem
  rw [List.getLast?_eq_some_getLast hne, h _ (List.getLast_mem hne)]

/-- A timestamp leads back to its bar. -/
theorem idxOfTs_eq (h : ValidCandles candles) {i : ℕ} (hi : i < candles.length) :
    idxOfTs candles (barAt candles i).ts = some i := by
  have hlast : (candles.zipIdx.filter fun bar => bar.1.ts = (barAt candles i).ts).getLast? =
      some (barAt candles i, i) := by
    refine getLast?_eq_of_forall_eq (List.mem_filter.2 ⟨?_, by simp⟩) ?_
    · rw [List.mem_zipIdx_iff_getElem?, barAt_eq_getElem hi]
      exact List.getElem?_eq_getElem hi
    · rintro ⟨bar, j⟩ hmem
      obtain ⟨hmem, hts⟩ := List.mem_filter.1 hmem
      rw [List.mem_zipIdx_iff_getElem?] at hmem
      obtain ⟨hj, hbar⟩ := List.getElem?_eq_some_iff.1 hmem
      have hat : barAt candles j = bar := (barAt_eq_getElem hj).trans hbar
      obtain rfl : j = i :=
        h.ts_inj hj hi ((congrArg Candle.ts hat).trans (of_decide_eq_true hts))
      rw [hat]
  rw [idxOfTs, hlast]
  rfl

/-- What was left pending comes back as it was stored. -/
theorem rehydrate_pending (h : ValidCandles candles') (hpre : candles <+: candles')
    {signals : List Signal} (hidx : ∀ sig ∈ signals, sig.idx < candles.length) :
    rehydratePendingSignals candles' (signals.map (pendingOf candles)) =
      signals.map Signal.stored := by
  rw [rehydratePendingSignals, List.filterMap_map, ← List.filterMap_eq_map]
  refine List.filterMap_congr fun sig hsig => ?_
  have hlt := hidx sig hsig
  have hts : idxOfTs candles' (barAt candles sig.idx).ts = some sig.idx := by
    rw [← barAt_grown hpre hlt]
    exact idxOfTs_eq h (hlt.trans_le hpre.length_le)
  simp only [Function.comp_apply, pendingOf, hts, Option.map_some]
  rfl

section
variable (hvalid : ValidCandles candles') (hpre : candles <+: candles')
  (hgen : CausalSignals fun candles => env.generateSignals candles row.family (rowParams env row))
include hpre hgen

theorem mem_generate_grown (hidx : sig.idx < candles.length) :
    sig ∈ env.generateSignals candles' row.family (rowParams env row) ↔
      sig ∈ env.generateSignals candles row.family (rowParams env row) := by
  have hcausal := hgen.causal candles candles' sig.idx (WindowRun.take_of_grown hpre hidx)
  have hfilter : ∀ l : List Signal, sig ∈ l ↔ sig ∈ l.filter fun s => s.idx = sig.idx :=
    fun l => by simp
  rw [hfilter, hfilter (env.generateSignals candles _ _)]
  exact iff_of_eq (congrArg (sig ∈ ·) hcausal.symm)

include hvalid

/-- The signals of one bar and side, on the longer candles and on the prefix. -/
theorem filter_key_grown (k : ℤ ×ₗ String) :
    ((env.generateSignals candles' row.family (rowParams env row)).filter
      fun sig => (barAt candles' sig.idx).ts ≤ lastTs candles).filter (fun sig => keyOf candles' sig = k) =
    (env.generateSignals candles row.family (rowParams env row)).filter
      fun sig => keyOf candles' sig = k := by
  have hmem : ∀ sig ∈ env.generateSignals candles row.family (rowParams env row),
      sig.idx < candles.length := hgen.idx_lt candles
  have hmem' : ∀ sig ∈ env.generateSignals candles' row.family (rowParams env row),
      sig.idx < candles'.length := hgen.idx_lt candles'
  by_cases hk : ∃ i < candles.length, (barAt candles' i).ts = (ofLex k).1
  · obtain ⟨i, hi, hts⟩ := hk
    -- at the bar of the key the generators agree
    have hkey : ∀ sig : Signal, sig.idx < candles'.length →
        (keyOf candles' sig = k ↔ sig.idx = i ∧ sig.side = (ofLex k).2) := by
      intro sig hlt
      constructor
      · rintro rfl
        exact ⟨hvalid.ts_inj hlt (hi.trans_le hpre.length_le) hts.symm, rfl⟩
      · rintro ⟨rfl, hside⟩
        rw [keyOf, hts, hside]
        rfl
    have hside : ∀ l : List Signal, (∀ sig ∈ l, sig.idx < candles'.length) →
        (l.filter fun sig => keyOf candles' sig = k) =
          (l.filter fun sig => sig.idx = i).filter fun sig => sig.side = (ofLex k).2 := by
      intro l hl
      rw [List.filter_filter]
      refine List.filter_congr fun sig hsig => ?_
      rw [Bool.eq_iff_iff]
      simp only [Bool.and_eq_true, decide_eq_true_eq]
      exact (hkey sig (hl sig hsig)).trans and_comm
    rw [hside _ fun sig hsig => (hmem sig hsig).trans_le hpre.length_le,
      hgen.causal candles candles' i (WindowRun.take_of_grown hpre hi), ← hside _ hmem',
      List.filter_filter]
    refine List.filter_congr fun sig hsig => ?_
    rw [Bool.eq_iff_iff]
    simp only [Bool.and_eq_true, decide_eq_true_eq]
    refine ⟨fun h => h.1, fun h => ⟨h, ?_⟩⟩
    rw [((hkey sig (hmem' sig hsig)).1 h).1]
    exact (hvalid.ts_le_iff hpre (hi.trans_le hpre.length_le)).2 hi
  · have hnone : ∀ sig : Signal, sig.idx < candles.length → keyOf candles' sig ≠ k := by
      rintro sig hlt rfl
      exact hk ⟨sig.idx, hlt, rfl⟩
    rw [List.filter_eq_nil_iff.2, List.filter_eq_nil_iff.2]
    · intro sig hsig
      simpa using hnone sig (hmem sig hsig)
    · intro sig hsig
      obtain ⟨hsig, hle⟩ := List.mem_filter.1 hsig
      have hlt := (hvalid.ts_le_iff hpre (hmem' sig hsig)).1 (of_decide_eq_true hle)
      simpa using hnone sig hlt

/-- Longer candles have the forward signals of the prefix and behind them those of newer bars. -/
theorem forwardSignals_append (hboundary : row.boundaryTs ≤ lastTs candles) :
    forwardSignals env row candles' = forwardSignals env row candles ++
      lastByKey (keyOf candles') ((env.generateSignals candles' row.family (rowParams env row)).filter
        fun sig => lastTs candles < (barAt candles' sig.idx).ts) := by
  rw [forwardSignals, lastByKey_eq_append_of_lt fun sig => decide ((barAt candles' sig.idx).ts ≤
    lastTs candles)]
  · congr 1
    · rw [forwardSignals]
      have hcongr : ∀ sig ∈ (env.generateSignals candles row.family (rowParams env row)).filter
          fun sig => row.boundaryTs < (barAt candles sig.idx).ts,
          keyOf candles' sig = keyOf candles sig := by
        intro sig hsig
        exact keyOf_grown hpre (hgen.idx_lt candles sig (List.mem_filter.1 hsig).1)
      rw [← lastByKey_congr hcongr]
      refine lastByKey_eq_of_filter fun k => ?_
      have hkey := congrArg (List.filter fun _ => decide (row.boundaryTs < (ofLex k).1))
        (filter_key_grown hvalid hpre hgen k)
      simp only [List.filter_filter] at hkey ⊢
      refine Eq.trans (List.filter_congr fun sig _ => ?_) (hkey.trans (List.filter_congr
        fun sig hsig => ?_))
      · by_cases h : keyOf candles' sig = k
        · rw [← h, Bool.eq_iff_iff]
          simp only [keyOf, ofLex_toLex, Bool.and_eq_true, decide_eq_true_eq, true_and]
          exact and_comm.trans (and_congr_left' decide_eq_true_iff.symm)
        · simp only [h, decide_false, Bool.false_and, Bool.and_false]
      · by_cases h : keyOf candles' sig = k
        · rw [← h, Bool.eq_iff_iff]
          simp only [keyOf, ofLex_toLex, barAt_grown hpre (hgen.idx_lt candles sig hsig),
            Bool.and_eq_true, decide_eq_true_eq, true_and, and_true]
        · simp only [h, decide_false, Bool.false_and, Bool.and_false]
    · rw [List.filter_filter]
      refine congrArg _ (List.filter_congr fun sig _ => ?_)
      rw [Bool.eq_iff_iff]
      simp only [Bool.and_eq_true, Bool.not_eq_true', decide_eq_false_iff_not, not_le,
        decide_eq_true_eq]
      exact ⟨fun h => h.1, fun h => ⟨h, hboundary.trans_lt h⟩⟩
  · intro a ha b hb hle hlt
    rw [decide_eq_true_eq] at hle
    rw [decide_eq_false_iff_not, not_le] at hlt
    rw [keyOf, keyOf, Prod.Lex.toLex_lt_toLex]
    exact .inl (hle.trans_lt hlt)

end

end ResearchLab.TrueForward
