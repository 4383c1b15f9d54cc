import ResearchLab.PaperLane.Incremental

/-!
# Deliveries of candles

The candles of a signal may come in one call or in many. Both leave the same signal exactly when
the boundary of the signal is not negative: only then is no cursor the timestamp zero, which
`_legacy_progress` takes for a missing cursor, and the candles behind the boundary are not replayed.
-/
namespace ResearchLab.PaperLane
open Foundation Foundation.IntOrder
open Simulation (Candle)

/-- A delivery of candles in one or more batches. -/
structure Delivery (sig : PaperActionSignal) (candles : List Candle)
    (batches : List (List Candle)) : Prop where
  called : batches ≠ []
  complete : ∀ c, c ∈ candles ↔ ∃ batch ∈ batches, c ∈ batch
  inOrder : Delivers sig [] batches

/-- Every delivery leaves what one call with all candles leaves, and once the status is terminal
further calls leave the signal as it is. -/
def IncrementalAgrees (sig : PaperActionSignal) : Prop :=
  ∀ candles batches, Observable sig candles → Delivery sig candles batches →
    ∃ whole parts, observe sig candles = .ok whole ∧ observeAll sig batches = .ok parts ∧
      view parts = view whole ∧
      (parts.status ≠ .armed → parts.status ≠ .openedPaper → ∀ more, observe parts more = .ok parts)

section
variable {sig : PaperActionSignal}

theorem observed_nil (hsig : Validated sig) (harmed : sig.status = .armed)
    (hnew : sig.outcome = {}) : Observed sig [] false sig := by
  have hvars : lastVars sig [] = freshVars sig := rfl
  have hclosed : (freshVars sig).opened = false := by simp [freshVars, startVars, harmed]
  have hwatched : watched sig (lastVars sig []) sig.outcome = sig := by
    simp only [watched, hvars, hclosed, Bool.false_eq_true, if_false, ← harmed]
  have hstores : Stores (lastVars sig []) sig.outcome := by
    rw [hvars, hnew]
    exact ⟨by simp [freshVars, startVars, hnew], by simp [freshVars, startVars, hnew],
      fun _ => ⟨rfl, rfl⟩, ⟨rfl, rfl, rfl⟩, fun h => absurd h (by simp [hclosed]),
      fun _ => ⟨rfl, rfl, rfl, rfl, rfl, rfl, rfl, rfl⟩⟩
  have hwatching : Watching sig (orderedPostBoundary sig []) sig.outcome :=
    ⟨rfl, freshVars_inv hsig harmed hnew, freshVars_marked harmed hnew, hstores⟩
  have hobserved : Observed sig [] false
      (watched sig (lastVars sig (orderedPostBoundary sig [])) sig.outcome) :=
    .watching hwatching fun h => absurd h (by simp)
  rwa [show orderedPostBoundary sig [] = [] from rfl, hwatched] at hobserved

/-- Behind a boundary that is not negative, every delivery agrees with one call. -/
theorem incrementalAgrees (hsig : Validated sig) (harmed : sig.status = .armed)
    (hnew : sig.outcome = {}) (hzero : 0 ≤ sig.boundaryTs) : IncrementalAgrees sig := by
  intro candles batches hcandles hdelivery
  have hne : ∀ {l : List Candle}, (∀ c ∈ l, c ∈ candles) → ∀ c ∈ l, c.ts ≠ 0 := by
    intro l hl c hc
    have := hcandles.behind c (hl c hc)
    omega
  have hflat : ∀ c, c ∈ batches.flatten ↔ c ∈ candles := fun c => by
    rw [List.mem_flatten, hdelivery.complete c]
  have hbatches : Observable sig batches.flatten := hcandles.of_subset fun c hc => (hflat c).1 hc
  have hstart := observed_nil hsig harmed hnew
  have horder : InOrder sig [] candles := fun c _ => .inr fun ts hts => by simp [hnew] at hts
  obtain ⟨whole, hwhole, hobserved⟩ := hstart.observe hsig hnew (by simpa using hcandles) (by simp)
    horder
  obtain ⟨parts, hparts, hobserved'⟩ := hstart.observeAll hsig hnew (by simpa using hbatches)
    (by simpa using hne fun c hc => (hflat c).1 hc) hdelivery.inOrder
  have hcalled : (false || !batches.isEmpty) = true := by simpa using hdelivery.called
  rw [hcalled] at hobserved'
  have hrows : orderedPostBoundary sig ([] ++ batches.flatten) =
      orderedPostBoundary sig ([] ++ candles) := by
    refine eq_of_ascending Candle.ts (orderedPostBoundary_pairwise _ _)
      (orderedPostBoundary_pairwise _ _) fun c => ?_
    rw [List.nil_append, List.nil_append, hbatches.mem_rows, hcandles.mem_rows, hflat]
  exact ⟨whole, parts, hwhole, hparts, hobserved.view_eq hobserved' hrows,
    fun harmed' hopened' more => if_pos ⟨harmed', hopened'⟩⟩

/-! ## The cursor zero -/

/-- A flat candle at the timestamp zero that does not fill the entry. -/
def unfilledCandle (sig : PaperActionSignal) : Candle :=
  let price :=
    if (sig.side = .long ↔ entryTriggerOf sig = "breakout_stop") then sig.entryZone.2 / 2
    else sig.entryZone.1 + 1
  ⟨0, price, price, price, price⟩

theorem unfilledCandle_spec (hsig : Validated sig) : Priced (unfilledCandle sig) ∧
    entryFilled sig (unfilledCandle sig).high (unfilledCandle sig).low = false := by
  have hlo := hsig.lo_pos
  have hhi := hsig.hi_pos
  have hhalf : sig.entryZone.2 / 2 < sig.entryZone.2 := by linarith
  have habove : sig.entryZone.1 < sig.entryZone.1 + 1 := by linarith
  by_cases hkind : sig.side = .long ↔ entryTriggerOf sig = "breakout_stop"
  · -- the entry fills from below, and the candle stays below the zone
    have hcandle : unfilledCandle sig = ⟨0, sig.entryZone.2 / 2, sig.entryZone.2 / 2,
        sig.entryZone.2 / 2, sig.entryZone.2 / 2⟩ := by
      simp [unfilledCandle, hkind]
    refine ⟨by rw [hcandle]; constructor <;> simp [hhi], ?_⟩
    rw [hcandle]
    unfold entryFilled
    by_cases htrigger : entryTriggerOf sig = "breakout_stop"
    · simpa [htrigger, hkind.2 htrigger] using hhi
    · simpa [htrigger, mt hkind.1 htrigger] using hhi
  · -- the entry fills from above, and the candle stays above the zone
    have hcandle : unfilledCandle sig = ⟨0, sig.entryZone.1 + 1, sig.entryZone.1 + 1,
        sig.entryZone.1 + 1, sig.entryZone.1 + 1⟩ := by
      simp [unfilledCandle, hkind]
    refine ⟨by rw [hcandle]; constructor <;> simp <;> linarith, ?_⟩
    rw [hcandle]
    unfold entryFilled
    by_cases htrigger : entryTriggerOf sig = "breakout_stop"
    · have hlong : sig.side ≠ .long := fun hlong => hkind ⟨fun _ => htrigger, fun _ => hlong⟩
      simp [htrigger, hlong]
    · have hlong : sig.side = .long := by
        by_contra hlong
        exact hkind ⟨fun h => absurd h hlong, fun h => absurd h htrigger⟩
      simp [htrigger, hlong]

/-- A call on a waiting signal whose cursor is the timestamp zero, or absent, sees the candle at
zero, also where it saw it before. -/
theorem observe_zero {s : PaperActionSignal} (harmed : s.status = .armed) {n : ℤ}
    (hn : 0 ≤ n) (hwindow : n + 1 < armWindowBars) {c : Candle} (hts : c.ts = 0)
    (hunfilled : entryFilled s c.high c.low = false) (hnegative : s.boundaryTs < 0)
    (hstate : s.outcome = {} ∧ n = 0 ∨
      s.outcome.lastObservedBarTs = some 0 ∧ s.outcome.barsWaited = some n) :
    ∃ o, observe s [c] = .ok { s with outcome := o } ∧ o.lastObservedBarTs = some 0 ∧
      o.barsWaited = some (n + 1) := by
  have hrows : orderedPostBoundary s [c] = [c] := by
    refine eq_of_ascending Candle.ts (orderedPostBoundary_pairwise _ _)
      (List.pairwise_singleton _ _) fun b => ?_
    rw [mem_orderedPostBoundary (by rintro a ha b hb -; simp_all)]
    simp only [List.mem_singleton, and_iff_left_iff_imp]
    rintro rfl
    omega
  have hprogress : (legacyProgress s s.outcome [c]).cursor = s.boundaryTs ∧
      (legacyProgress s s.outcome [c]).barsWaited = n := by
    rcases hstate with ⟨hempty, rfl⟩ | ⟨hlast, hwaited⟩
    · simp [legacyProgress, hempty, armWindowBars]
    · simp [legacyProgress, hlast, hwaited, hn, orElse]
  have hbar : observeBar s (startVars s (legacyProgress s s.outcome [c])) c =
      .ok (seeWait s (moveCursor (startVars s (legacyProgress s s.outcome [c])) c) c) := by
    have hbefore : ¬ armWindowBars ≤ n := by omega
    have hafter : ¬ armWindowBars ≤ n + 1 := by omega
    simp [observeBar, waitBar, moveCursor, startVars, seeWait, harmed, hprogress.2, hunfilled,
      hbefore, hafter]
  have hrun : (laneLoop s).run (startVars s (legacyProgress s s.outcome [c])) [c] = none := by
    simp [Scanner.run, laneLoop, hbar]
  have hlast : (laneLoop s).last (startVars s (legacyProgress s s.outcome [c])) [c] =
      seeWait s (moveCursor (startVars s (legacyProgress s s.outcome [c])) c) c := by
    simp [Scanner.last, laneLoop, hbar]
  have hfresh : [c].filter (fun row => s.boundaryTs < row.ts) = [c] := by
    simp [hts, hnegative]
  refine ⟨(pendingSignal s (seeWait s (moveCursor (startVars s
    (legacyProgress s s.outcome [c])) c) c)).outcome, ?_, ?_, ?_⟩
  · simp only [observe, harmed, hrows, hprogress.1, hfresh, hrun, hlast]
    simp [pendingSignal, seeWait, moveCursor, startVars, harmed]
  · simp [pendingSignal, pendingOutcome, seeWait, moveCursor, startVars, harmed, hts]
  · simp [pendingSignal, pendingOutcome, seeWait, moveCursor, startVars, harmed, hprogress.2]

/-- In front of the timestamp zero a repeated candle is observed twice. -/
theorem not_incrementalAgrees (hsig : Validated sig) (harmed : sig.status = .armed)
    (hnew : sig.outcome = {}) (hnegative : sig.boundaryTs < 0) : ¬ IncrementalAgrees sig := by
  intro hagrees
  obtain ⟨hpriced, hunfilled⟩ := unfilledCandle_spec hsig
  have hts : (unfilledCandle sig).ts = 0 := rfl
  have hcandles : Observable sig [unfilledCandle sig] :=
    ⟨by rintro a ha b hb -; simp_all, by simpa [hts] using hnegative, by simpa using hpriced⟩
  obtain ⟨o, hfirst, hlast, hwaited⟩ := observe_zero harmed le_rfl (by decide) hts hunfilled
    hnegative (.inl ⟨hnew, rfl⟩)
  obtain ⟨o', hsecond, -, hwaited'⟩ := observe_zero (s := { sig with outcome := o }) harmed
    (n := 1) (by decide) (by decide) hts hunfilled hnegative (.inr ⟨hlast, hwaited⟩)
  obtain ⟨whole, parts, hwhole, hparts, hview, -⟩ := hagrees [unfilledCandle sig]
    [[unfilledCandle sig], [unfilledCandle sig]] hcandles
    ⟨by simp, by simp, fun c hc => .inr fun ts hts => by simp [hnew] at hts,
      fun s _ => ⟨fun c hc => .inl (by simpa using hc), fun _ _ => trivial⟩⟩
  have hparts' : observeAll sig [[unfilledCandle sig], [unfilledCandle sig]] =
      .ok { sig with outcome := o' } := by
    simp only [observeAll, List.foldlM_cons, List.foldlM_nil, hfirst, bind, Except.bind, hsecond]
    rfl
  obtain rfl := Except.ok.inj (hwhole.symm.trans hfirst)
  obtain rfl := Except.ok.inj (hparts.symm.trans hparts')
  have hbars := congrArg LaneView.barsWaited hview
  simp [view, hwaited, hwaited'] at hbars

end

/-- The lane observes in parts what it observes at once exactly when no cursor can be zero. -/
theorem incremental_agrees_iff {sig : PaperActionSignal} (hvalid : validateSignal sig = [])
    (harmed : sig.status = .armed) (hnew : sig.outcome = {}) :
    IncrementalAgrees sig ↔ 0 ≤ sig.boundaryTs := by
  have hsig := validated_of_validateSignal hvalid
  constructor
  · intro hagrees
    by_contra hnegative
    exact not_incrementalAgrees hsig harmed hnew (not_le.1 hnegative) hagrees
  · exact incrementalAgrees hsig harmed hnew

/-- A pullback watch with a boundary. -/
def pullbackSignal (boundaryTs : ℤ) : PaperActionSignal where
  source := .farm
  symbol := "X"
  okxInstId := "X-USDT-SWAP"
  timeframe := "15m"
  side := .long
  setupFamily := "momentum_continuation"
  entryZone := (99, 100)
  stopLoss := 97
  invalidationRule := "close below 97"
  takeProfitPlan := [⟨"tp1", 103, 1⟩]
  maxHoldBars := 10
  reasonNow := "live mover"
  status := .armed
  riskPct := 2
  boundaryTs

theorem incremental_agrees_iff_pullbackSignal :
    IncrementalAgrees (pullbackSignal 900000) ↔ 0 ≤ (pullbackSignal 900000).boundaryTs :=
  incremental_agrees_iff (by decide +kernel) rfl rfl

/-- A candle at the timestamp zero that the pullback watch sees without a fill. -/
def epochCandle : Candle := ⟨0, 101, 101, 101, 101⟩

theorem epoch_candle_is_replayed : ¬ IncrementalAgrees (pullbackSignal (-1)) := by
  intro hagrees
  have hcandles : Observable (pullbackSignal (-1)) [epochCandle] :=
    ⟨by rintro a ha b hb -; simp_all, by simp [epochCandle, pullbackSignal],
      by simpa using (⟨by decide +kernel, by decide +kernel, by decide +kernel⟩ : Priced epochCandle)⟩
  obtain ⟨whole, parts, hwhole, hparts, hview, -⟩ := hagrees [epochCandle]
    [[epochCandle], [epochCandle]] hcandles
    ⟨by simp, by simp, fun c hc => .inr (by simp [pullbackSignal]),
      fun s _ => ⟨fun c hc => .inl (by simpa using hc), fun _ _ => trivial⟩⟩
  have hone : (observe (pullbackSignal (-1)) [epochCandle]).map (fun s => s.outcome.barsWaited) =
      .ok (some 1) := by decide +kernel
  have htwo : (observeAll (pullbackSignal (-1)) [[epochCandle], [epochCandle]]).map
      (fun s => s.outcome.barsWaited) = .ok (some 2) := by decide +kernel
  rw [hwhole] at hone
  rw [hparts] at htwo
  have hbars := congrArg LaneView.barsWaited hview
  have hone : whole.outcome.barsWaited = some 1 := Except.ok.inj hone
  have htwo : parts.outcome.barsWaited = some 2 := Except.ok.inj htwo
  simp [view, hone, htwo] at hbars

end ResearchLab.PaperLane
