import ResearchLab.PaperLane.Closing

/-!
# One candle of the lane

What a candle keeps of the accumulators, and that two loops whose accumulators differ only by the
rounding of the persisted ones return alike at a candle or stay alike behind it.
-/
namespace ResearchLab.PaperLane
open Foundation
open Simulation (Candle)

/-- The outcome fields that a resumed lane shares with an uninterrupted one. -/
structure LaneView where
  status : SignalStatus
  result : Option LaneResult
  entry : Option ℚ
  exit : Option ℚ
  grossPct : Option ℚ
  netPct : Option ℚ
  bankedPct : Option ℚ
  partialDone : Option Bool
  effStop : Option ℚ
  mfePct : Option ℚ
  maePct : Option ℚ
  barsHeld : Option ℤ
  barsWaited : Option ℤ
  lastObservedBarTs : Option ℤ
  deriving DecidableEq

def view (sig : PaperActionSignal) : LaneView :=
  let o := sig.outcome
  { status := sig.status, result := o.result, entry := o.entry, exit := o.exit,
    grossPct := o.grossPct, netPct := o.netPct, bankedPct := o.bankedPct,
    partialDone := o.partialDone, effStop := o.effStop, mfePct := o.mfePct, maePct := o.maePct,
    barsHeld := o.barsHeld, barsWaited := o.barsWaited, lastObservedBarTs := o.lastObservedBarTs }

/-- Positive prices; the lane reads no open. -/
structure Priced (c : Candle) : Prop where
  high_pos : 0 < c.high
  low_pos : 0 < c.low
  close_pos : 0 < c.close

/-- The invariant of the accumulators. -/
structure LaneVars.Inv (sig : PaperActionSignal) (v : LaneVars) : Prop where
  entry_pos : v.opened = true → 0 < v.entryPx
  stop_pos : 0 < v.effStop
  held_nonneg : 0 ≤ v.barsHeld
  waited_nonneg : 0 ≤ v.barsWaited
  banked_rounded : roundTo 4 v.banked = v.banked
  filled : v.partialDone = true → 0 < firstTp sig ∧ v.banked = bankedAt sig v.entryPx
  waiting : v.opened = false → v.entryPx = 0 ∧ v.effStop = sig.stopLoss ∧ v.partialDone = false ∧
    v.beDone = false ∧ v.banked = 0 ∧ v.mfe = 0 ∧ v.mae = 0 ∧ v.barsHeld = 0
  state_waiting : v.opened = false → v.state.entry = none ∧ v.state.partialDone = none ∧
    v.state.beDone = none ∧ v.state.bankedPct = none ∧ v.state.mfePct = none ∧
    v.state.maePct = none ∧ v.state.barsHeld = none
  state_stop : v.state.effStop = if v.opened then some v.effStop else none
  state_exit : v.state.exit = none ∧ v.state.grossPct = none ∧ v.state.netPct = none
  state_waited : v.opened = true → v.state.barsWaited = some v.barsWaited

/-! ## What a candle keeps -/

theorem moveToBreakEven_cases (sig : PaperActionSignal) (v : LaneVars) (c : Candle) :
    moveToBreakEven sig v c = v ∨
      moveToBreakEven sig v c = { v with effStop := v.entryPx, beDone := true } := by
  simp only [moveToBreakEven]
  split_ifs <;> simp

theorem bankPartial_cases (sig : PaperActionSignal) {v : LaneVars} (h : 0 < v.entryPx)
    (c : Candle) : bankPartial sig v c = v ∨ reached sig c (firstTp sig) = true ∧
      bankPartial sig v c =
        { v with
          banked := bankedAt sig v.entryPx
          partialDone := true
          effStop := v.entryPx } := by
  simp only [bankPartial, bankedAt, returnPct_text h]
  by_cases hdo : (sig.exitMode = "partial_be" ∧ 1 < sig.takeProfitPlan.length) ∧
      ¬ v.partialDone = true ∧ reached sig c (firstTp sig) = true
  · rw [if_pos hdo]
    exact .inr ⟨hdo.2.2, rfl⟩
  · rw [if_neg hdo]
    exact .inl rfl

theorem Validated.reached_pos {sig : PaperActionSignal} {c : Candle} {price : ℚ} (hc : Priced c)
    (hlong : sig.side = .long → 0 < price) (h : reached sig c price = true) : 0 < price := by
  cases hside : sig.side with
  | long => exact hlong hside
  | short =>
    simp only [reached, hside, reduceCtorEq, if_false, decide_eq_true_eq] at h
    exact hc.low_pos.trans_le h

theorem Validated.firstTp_pos {sig : PaperActionSignal} (hsig : Validated sig) {c : Candle}
    (hc : Priced c) (h : reached sig c (firstTp sig) = true) : 0 < firstTp sig := by
  refine reached_pos hc (fun hlong => ?_) h
  obtain ⟨tp, rest, hplan⟩ := List.exists_cons_of_ne_nil hsig.plan_nonempty
  have htp := hsig.long_tp hlong tp (by simp [hplan])
  simpa [firstTp, hplan] using htp

theorem Validated.finalTp_pos {sig : PaperActionSignal} (hsig : Validated sig) {c : Candle}
    (hc : Priced c) (h : reached sig c (finalTp sig) = true) : 0 < finalTp sig := by
  refine reached_pos hc (fun hlong => ?_) h
  have htp := hsig.long_tp hlong _ (List.getLast_mem hsig.plan_nonempty)
  simpa [finalTp, List.getLast?_eq_some_getLast hsig.plan_nonempty] using htp

namespace LaneVars.Inv

variable {sig : PaperActionSignal} {v : LaneVars}

theorem moveCursor (h : v.Inv sig) (c : Candle) : (moveCursor v c).Inv sig := { h with }

theorem seeWait (h : v.Inv sig) (c : Candle) : (seeWait sig v c).Inv sig :=
  { h with
    waited_nonneg := by have := h.waited_nonneg; simp only [PaperLane.seeWait]; omega
    state_waited := fun _ => rfl }

theorem fillEntry (hsig : Validated sig) (h : v.Inv sig) (hclosed : v.opened = false)
    (hwaited : v.state.barsWaited = some v.barsWaited) (c : Candle) :
    (fillEntry sig v c).Inv sig where
  entry_pos _ := by
    simp only [PaperLane.fillEntry, entryPrice]
    split_ifs
    exacts [hsig.hi_pos, hsig.lo_pos, hsig.lo_pos, hsig.hi_pos]
  stop_pos := hsig.stop_pos
  held_nonneg := h.held_nonneg
  waited_nonneg := h.waited_nonneg
  banked_rounded := h.banked_rounded
  filled hp := by
    obtain ⟨-, -, hparts', -⟩ := h.waiting hclosed
    exact absurd (hparts'.symm.trans hp) (by simp)
  waiting hfalse := absurd hfalse (by simp [PaperLane.fillEntry])
  state_waiting hfalse := absurd hfalse (by simp [PaperLane.fillEntry])
  state_stop := rfl
  state_exit := h.state_exit
  state_waited _ := hwaited

theorem seeHeld (h : v.Inv sig) (hopen : v.opened = true) (c : Candle) :
    (seeHeld sig v c).Inv sig :=
  { h with
    held_nonneg := by have := h.held_nonneg; simp only [PaperLane.seeHeld]; omega
    waiting := fun hfalse => absurd (hopen.symm.trans hfalse) (by simp)
    state_waiting := fun hfalse => absurd (hopen.symm.trans hfalse) (by simp) }

/-- A move of the stop and the banking of a half keep all but the record of the stop. -/
structure Moved (sig : PaperActionSignal) (v w : LaneVars) : Prop where
  opened : w.opened = v.opened
  entryPx : w.entryPx = v.entryPx
  barsHeld : w.barsHeld = v.barsHeld
  barsWaited : w.barsWaited = v.barsWaited
  state : w.state = v.state
  stop_pos : 0 < w.effStop
  banked_rounded : roundTo 4 w.banked = w.banked
  filled : w.partialDone = true → 0 < firstTp sig ∧ w.banked = bankedAt sig w.entryPx

theorem moved (h : v.Inv sig) : Moved sig v v :=
  ⟨rfl, rfl, rfl, rfl, rfl, h.stop_pos, h.banked_rounded, h.filled⟩

theorem Moved.moveToBreakEven {w : LaneVars} (h : Moved sig v w) (hentry : 0 < w.entryPx)
    (c : Candle) : Moved sig v (moveToBreakEven sig w c) := by
  rcases moveToBreakEven_cases sig w c with heq | heq <;> rw [heq]
  · exact h
  · exact { h with stop_pos := hentry }

/-- The first level is only banked at a candle that reached it. -/
theorem Moved.bankPartial {w : LaneVars} (hsig : Validated sig) (h : Moved sig v w)
    (hentry : 0 < w.entryPx) {c : Candle} (hc : Priced c) :
    Moved sig v (bankPartial sig w c) := by
  rcases bankPartial_cases sig hentry c with heq | ⟨hreached, heq⟩ <;> rw [heq]
  · exact h
  · exact { h with
      stop_pos := hentry
      banked_rounded := roundTo_roundTo _ _
      filled := fun _ => ⟨hsig.firstTp_pos hc hreached, rfl⟩ }

theorem Moved.recordStops {w : LaneVars} (hv : v.Inv sig) (hopen : v.opened = true)
    (h : Moved sig v w) : (recordStops w).Inv sig where
  entry_pos _ := h.entryPx ▸ hv.entry_pos hopen
  stop_pos := h.stop_pos
  held_nonneg := h.barsHeld.symm ▸ hv.held_nonneg
  waited_nonneg := h.barsWaited.symm ▸ hv.waited_nonneg
  banked_rounded := h.banked_rounded
  filled := h.filled
  waiting hfalse := absurd (h.opened.symm.trans hfalse) (by simp [hopen])
  state_waiting hfalse := absurd (h.opened.symm.trans hfalse) (by simp [hopen])
  state_stop := by simp [PaperLane.recordStops, h.opened, hopen]
  state_exit := by simpa [PaperLane.recordStops, h.state] using hv.state_exit
  state_waited _ := by
    simpa [PaperLane.recordStops, h.state, h.barsWaited] using hv.state_waited hopen

end LaneVars.Inv

/-- A return of the loop at a candle: the signal is terminal and its cursor is the candle. -/
structure Returned (a : PaperActionSignal) (c : Candle) : Prop where
  terminal : a.status = .expired ∨ a.status = .closedPaper
  cursor : a.outcome.lastObservedBarTs = some c.ts

/-! ## Accumulators that were stored in between -/

/-- The accumulators that a stored outcome does not give back exactly. -/
structure Reloaded where
  mfe : ℚ
  mae : ℚ
  favWait : ℚ
  observed : ℤ
  processed : ℤ
  state : SignalOutcome

def LaneVars.reload (v : LaneVars) (m : Reloaded) : LaneVars :=
  { v with
    mfe := m.mfe
    mae := m.mae
    favWait := m.favWait
    observed := m.observed
    processed := m.processed
    state := m.state }

theorem LaneVars.reload_ite (p : Prop) [Decidable p] (v w : LaneVars) (m : Reloaded) :
    (if p then v else w).reload m = if p then v.reload m else w.reload m := by
  split_ifs <;> rfl

/-- They agree with the uninterrupted ones up to rounding. -/
structure Reloaded.Agrees (m : Reloaded) (v : LaneVars) : Prop where
  mfe : roundTo 3 m.mfe = roundTo 3 v.mfe
  mae : roundTo 3 m.mae = roundTo 3 v.mae
  barsWaited : m.state.barsWaited = v.state.barsWaited
  lastTs : m.state.lastObservedBarTs = v.state.lastObservedBarTs

def LaneVars.Same (v w : LaneVars) : Prop := ∃ m : Reloaded, w = v.reload m ∧ m.Agrees v

namespace LaneVars.Same

variable {sig : PaperActionSignal} {v w : LaneVars}

theorem refl (v : LaneVars) : v.Same v :=
  ⟨⟨v.mfe, v.mae, v.favWait, v.observed, v.processed, v.state⟩, rfl, rfl, rfl, rfl, rfl⟩

theorem moveCursor (h : v.Same w) (c : Candle) : (moveCursor v c).Same (moveCursor w c) := by
  obtain ⟨m, rfl, h⟩ := h
  exact ⟨⟨m.mfe, m.mae, m.favWait, _, _, _⟩, rfl, h.mfe, h.mae, h.barsWaited, rfl⟩

theorem seeWait (h : v.Same w) (c : Candle) : (seeWait sig v c).Same (seeWait sig w c) := by
  obtain ⟨m, rfl, h⟩ := h
  exact ⟨⟨m.mfe, m.mae, _, m.observed, m.processed, _⟩, rfl, h.mfe, h.mae, rfl, h.lastTs⟩

theorem fillEntry (h : v.Same w) (c : Candle) : (fillEntry sig v c).Same (fillEntry sig w c) := by
  obtain ⟨m, rfl, h⟩ := h
  exact ⟨⟨m.mfe, m.mae, m.favWait, m.observed, m.processed, _⟩, rfl, h.mfe, h.mae, h.barsWaited,
    h.lastTs⟩

theorem seeHeld (h : v.Same w) (c : Candle) : (seeHeld sig v c).Same (seeHeld sig w c) := by
  obtain ⟨m, rfl, h⟩ := h
  exact ⟨⟨_, _, m.favWait, m.observed, m.processed, _⟩, rfl, roundTo_max_congr h.mfe _,
    roundTo_max_congr h.mae _, h.barsWaited, h.lastTs⟩

/-- A function of the accumulators that are given back exactly, which changes no others. -/
theorem of_exact {f : LaneVars → LaneVars} (h : v.Same w)
    (hreload : ∀ m, f (v.reload m) = (f v).reload m)
    (hkeep : (f v).mfe = v.mfe ∧ (f v).mae = v.mae ∧ (f v).state = v.state) : (f v).Same (f w) := by
  obtain ⟨m, rfl, h⟩ := h
  obtain ⟨hmfe, hmae, hstate⟩ := hkeep
  exact ⟨m, hreload m, by rw [hmfe, h.mfe], by rw [hmae, h.mae], by rw [hstate, h.barsWaited],
    by rw [hstate, h.lastTs]⟩

theorem moveToBreakEven (h : v.Same w) (c : Candle) :
    (moveToBreakEven sig v c).Same (moveToBreakEven sig w c) := by
  refine h.of_exact (f := fun v => PaperLane.moveToBreakEven sig v c) (fun m => ?_) ?_
  · simp only [PaperLane.moveToBreakEven, LaneVars.reload_ite]
    rfl
  · rcases moveToBreakEven_cases sig v c with heq | heq <;> simp only [heq, and_self]

theorem bankPartial (h : v.Same w) (hentry : 0 < v.entryPx) (c : Candle) :
    (bankPartial sig v c).Same (bankPartial sig w c) := by
  refine h.of_exact (f := fun v => PaperLane.bankPartial sig v c) (fun m => ?_) ?_
  · simp only [PaperLane.bankPartial, LaneVars.reload_ite]
    rfl
  · rcases bankPartial_cases sig hentry c with heq | ⟨-, heq⟩ <;> simp only [heq, and_self]

theorem recordStops (h : v.Same w) : (recordStops v).Same (recordStops w) := by
  obtain ⟨m, rfl, h⟩ := h
  exact ⟨⟨m.mfe, m.mae, m.favWait, m.observed, m.processed, _⟩, rfl, h.mfe, h.mae, h.barsWaited,
    h.lastTs⟩

/-- Alike accumulators are closed alike. -/
theorem closed (h : v.Same w) (hv : v.Inv sig) (hw : w.Inv sig) (kind : LaneResult) (exitPx : ℚ) :
    view (closedSignal sig w kind exitPx) = view (closedSignal sig v kind exitPx) := by
  have hstop : w.state.effStop = v.state.effStop := by
    obtain ⟨m, rfl, -⟩ := h
    exact hw.state_stop.trans hv.state_stop.symm
  obtain ⟨m, rfl, h⟩ := h
  have hstop : m.state.effStop = v.state.effStop := hstop
  simp only [view, closedSignal, LaneVars.reload, h.mfe, h.mae, h.barsWaited, h.lastTs, hstop]
  rfl

theorem expired (h : v.Same w) (hv : v.Inv sig) (hw : w.Inv sig) :
    view (expireNoEntry sig w) = view (expireNoEntry sig v) := by
  obtain ⟨hexit, hgross, hnet⟩ := hv.state_exit
  obtain ⟨hexit', hgross', hnet'⟩ := hw.state_exit
  obtain ⟨m, rfl, h⟩ := h
  have hlast : (v.reload m).state.lastObservedBarTs = v.state.lastObservedBarTs := h.lastTs
  simp only [view, expireNoEntry, hexit, hgross, hnet, hexit', hgross', hnet', hlast]
  rfl

end LaneVars.Same

/-! ## The two loops at a candle -/

/-- Both loops return alike at a candle, or both go on with accumulators that agree. -/
inductive StepsAlike (sig : PaperActionSignal) (c : Candle) : BarStep → BarStep → Prop
  | returns {a b : PaperActionSignal} (hview : view b = view a) (ha : Returned a c)
      (hb : Returned b c) : StepsAlike sig c (.error (.ok a)) (.error (.ok b))
  | goesOn {v w : LaneVars} (hsame : v.Same w) (hv : v.Inv sig) (hw : w.Inv sig)
      (hlast : v.state.lastObservedBarTs = some c.ts)
      (hwaited : v.state.barsWaited = some v.barsWaited) : StepsAlike sig c (.ok v) (.ok w)

section
variable {sig : PaperActionSignal} {v w : LaneVars} {c : Candle}

theorem stepsAlike_expire (h : v.Same w) (hv : v.Inv sig) (hw : w.Inv sig)
    (hlast : v.state.lastObservedBarTs = some c.ts) :
    StepsAlike sig c (.error (.ok (expireNoEntry sig v))) (.error (.ok (expireNoEntry sig w))) := by
  refine .returns (h.expired hv hw) ⟨.inl rfl, hlast⟩ ⟨.inl rfl, ?_⟩
  obtain ⟨m, rfl, h⟩ := h
  exact h.lastTs.trans hlast

theorem stepsAlike_close (h : v.Same w) (hv : v.Inv sig) (hw : w.Inv sig)
    (hopen : v.opened = true) (hlast : v.state.lastObservedBarTs = some c.ts)
    (kind : LaneResult) {exitPx : ℚ} (hexit : 0 < exitPx) :
    StepsAlike sig c (.error (close sig v kind exitPx)) (.error (close sig w kind exitPx)) := by
  have hopen' : w.opened = true := by
    obtain ⟨m, rfl, -⟩ := h
    exact hopen
  rw [close_eq kind (hv.entry_pos hopen) hexit hv.filled,
    close_eq kind (hw.entry_pos hopen') hexit hw.filled]
  refine .returns (h.closed hv hw kind exitPx) ⟨.inr rfl, hlast⟩ ⟨.inr rfl, ?_⟩
  obtain ⟨m, rfl, h⟩ := h
  exact h.lastTs.trans hlast

theorem stepsAlike_waitBar (hsig : Validated sig) (h : v.Same w) (hv : v.Inv sig) (hw : w.Inv sig)
    (hclosed : v.opened = false) (hlast : v.state.lastObservedBarTs = some c.ts) :
    StepsAlike sig c (waitBar sig v c) (waitBar sig w c) := by
  have hwaited : w.barsWaited = v.barsWaited ∧ w.opened = false := by
    obtain ⟨m, rfl, -⟩ := h
    exact ⟨rfl, hclosed⟩
  have hseen : (seeWait sig w c).barsWaited = (seeWait sig v c).barsWaited := by
    simp only [seeWait, hwaited.1]
  unfold waitBar
  simp only [hwaited.1, hseen]
  split_ifs
  · exact stepsAlike_expire h hv hw hlast
  · exact .goesOn ((h.seeWait c).fillEntry c) ((hv.seeWait c).fillEntry hsig hclosed rfl c)
      ((hw.seeWait c).fillEntry hsig hwaited.2 rfl c) hlast rfl
  · exact stepsAlike_expire (h.seeWait c) (hv.seeWait c) (hw.seeWait c) hlast
  · exact .goesOn (h.seeWait c) (hv.seeWait c) (hw.seeWait c) hlast rfl

theorem stepsAlike_heldBar (hsig : Validated sig) (hc : Priced c) (h : v.Same w) (hv : v.Inv sig)
    (hw : w.Inv sig) (hopen : v.opened = true) (hlast : v.state.lastObservedBarTs = some c.ts) :
    StepsAlike sig c (heldBar sig v c) (heldBar sig w c) := by
  have hopen' : w.opened = true := by
    obtain ⟨m, rfl, -⟩ := h
    exact hopen
  have hseen : (seeHeld sig v c).Same (seeHeld sig w c) := h.seeHeld c
  have hv₁ := hv.seeHeld hopen c
  have hw₁ := hw.seeHeld hopen' c
  have hentry : 0 < (seeHeld sig v c).entryPx := hv.entry_pos hopen
  have hentry' : 0 < (seeHeld sig w c).entryPx := hw.entry_pos hopen'
  have hmoved := hv₁.moved.moveToBreakEven hentry c
  have hmoved' := hw₁.moved.moveToBreakEven hentry' c
  have hpos : 0 < (moveToBreakEven sig (seeHeld sig v c) c).entryPx := hmoved.entryPx ▸ hentry
  have hpos' : 0 < (moveToBreakEven sig (seeHeld sig w c) c).entryPx := hmoved'.entryPx ▸ hentry'
  have hbank := hmoved.bankPartial hsig hpos hc
  have hv₂ := hbank.recordStops hv₁ hopen
  have hw₂ := (hmoved'.bankPartial hsig hpos' hc).recordStops hw₁ hopen'
  have hsame : (recordStops (bankPartial sig (moveToBreakEven sig (seeHeld sig v c) c) c)).Same
      (recordStops (bankPartial sig (moveToBreakEven sig (seeHeld sig w c) c) c)) :=
    ((hseen.moveToBreakEven c).bankPartial hpos c).recordStops
  have hopen₂ : (recordStops (bankPartial sig (moveToBreakEven sig (seeHeld sig v c) c) c)).opened =
      true := hbank.opened.trans hopen
  have hlast₂ : (recordStops (bankPartial sig (moveToBreakEven sig (seeHeld sig v c) c)
      c)).state.lastObservedBarTs = some c.ts :=
    (congrArg SignalOutcome.lastObservedBarTs hbank.state).trans hlast
  have hstop : stopHit sig (seeHeld sig w c) c = stopHit sig (seeHeld sig v c) c ∧
      stopKind (seeHeld sig w c) = stopKind (seeHeld sig v c) ∧
        (seeHeld sig w c).effStop = (seeHeld sig v c).effStop := by
    obtain ⟨m, heq, -⟩ := hseen
    rw [heq]
    exact ⟨rfl, rfl, rfl⟩
  have hheld : ∀ {x y : LaneVars}, x.Same y → y.barsHeld = x.barsHeld := by
    rintro x _ ⟨m, rfl, -⟩
    rfl
  unfold heldBar
  simp only [hstop, hheld hsame]
  split_ifs with hhit htake htime
  · exact stepsAlike_close hseen hv₁ hw₁ hopen hlast _ hv₁.stop_pos
  · exact stepsAlike_close hsame hv₂ hw₂ hopen₂ hlast₂ _ (hsig.finalTp_pos hc htake)
  · exact stepsAlike_close hsame hv₂ hw₂ hopen₂ hlast₂ _ hc.close_pos
  · exact .goesOn hsame hv₂ hw₂ hlast₂ (hv₂.state_waited hopen₂)

/-- The step lemma of the lane. -/
theorem stepsAlike_observeBar (hsig : Validated sig) (hc : Priced c) (h : v.Same w)
    (hv : v.Inv sig) (hw : w.Inv sig) :
    StepsAlike sig c (observeBar sig v c) (observeBar sig w c) := by
  have hopened : w.opened = v.opened := by
    obtain ⟨m, rfl, -⟩ := h
    rfl
  unfold observeBar
  cases hopen : v.opened with
  | true =>
    rw [if_pos (show (moveCursor v c).opened = true from hopen),
      if_pos (show (moveCursor w c).opened = true from hopened.trans hopen)]
    exact stepsAlike_heldBar hsig hc (h.moveCursor c) (hv.moveCursor c) (hw.moveCursor c) hopen rfl
  | false =>
    rw [if_neg (show ¬ (moveCursor v c).opened = true by simp [moveCursor, hopen]),
      if_neg (show ¬ (moveCursor w c).opened = true by simp [moveCursor, hopened, hopen])]
    exact stepsAlike_waitBar hsig (h.moveCursor c) (hv.moveCursor c) (hw.moveCursor c) hopen rfl

end
end ResearchLab.PaperLane
