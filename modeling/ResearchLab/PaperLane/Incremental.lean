import ResearchLab.PaperLane.Loop

/-!
# Incremental observation

Candles that reach the lane in any number of calls leave the signal that one call with all of them
leaves, as long as the cursor is not the timestamp zero: a stored cursor of zero is read as absent.
-/
namespace ResearchLab.PaperLane
open Foundation Foundation.IntOrder
open Simulation (Candle)

/-! ## The rows behind the boundary -/

section
variable {sig : PaperActionSignal} {candles : List Candle}

/-- No two candles share a timestamp. -/
def Distinct (candles : List Candle) : Prop :=
  ∀ a ∈ candles, ∀ b ∈ candles, a.ts = b.ts → a = b

theorem mem_orderedPostBoundary (h : Distinct candles) {c : Candle} :
    c ∈ orderedPostBoundary sig candles ↔ c ∈ candles ∧ sig.boundaryTs < c.ts := by
  simp only [orderedPostBoundary, List.mem_filterMap, mem_sortOn]
  constructor
  · rintro ⟨ts, -, hrow⟩
    rcases Table.of_row_foldl_upsert Candle.ts hrow with ⟨hc, -⟩ | hnone
    · simpa using hc
    · simp at hnone
  · intro hc
    have hmem : c ∈ candles.filter fun row => sig.boundaryTs < row.ts := by simpa using hc
    have hsome := Table.isSome_row_foldl_upsert Candle.ts (t := .empty)
      (.inl ⟨c, hmem, rfl⟩)
    obtain ⟨r, hr⟩ := Option.isSome_iff_exists.1 hsome
    rcases Table.of_row_foldl_upsert Candle.ts hr with ⟨hrmem, hts⟩ | hnone
    · obtain rfl := h r (List.mem_of_mem_filter hrmem) c hc.1 hts
      exact ⟨r.ts, (Table.mem_keys _ _).2 hsome, hr⟩
    · simp at hnone

theorem orderedPostBoundary_pairwise (sig : PaperActionSignal) (candles : List Candle) :
    (orderedPostBoundary sig candles).Pairwise fun a b => a.ts < b.ts := by
  refine List.Pairwise.filterMap _ (fun a a' hlt b hb b' hb' => ?_)
    (sortOn_id_pairwise_lt (Table.nodup _))
  have hkey : ∀ {k : ℤ} {r : Candle}, ((candles.filter fun row => sig.boundaryTs < row.ts).foldl
      (fun t row => t.upsert row.ts row fun _ => row) Table.empty).row k = some r → r.ts = k := by
    intro k r hr
    rcases Table.of_row_foldl_upsert Candle.ts hr with ⟨-, hk⟩ | hnone
    · exact hk
    · simp at hnone
  rw [hkey hb, hkey hb']
  exact hlt

end

/-! ## Loops over several candles -/

/-- The accumulators before the first candle. -/
def freshVars (sig : PaperActionSignal) : LaneVars := startVars sig ⟨sig.boundaryTs, 0, 0, 0⟩

theorem freshVars_inv {sig : PaperActionSignal} (hsig : Validated sig) (harmed : sig.status = .armed)
    (hnew : sig.outcome = {}) : (freshVars sig).Inv sig where
  entry_pos h := absurd h (by simp [freshVars, startVars, harmed])
  stop_pos := by simpa [freshVars, startVars, hnew, orElse] using hsig.stop_pos
  held_nonneg := le_rfl
  waited_nonneg := le_rfl
  banked_rounded := by simp [freshVars, startVars, hnew, orElse]
  filled h := absurd h (by simp [freshVars, startVars, hnew])
  waiting _ := by simp [freshVars, startVars, hnew, orElse]
  state_waiting _ := by simp [freshVars, startVars, hnew]
  state_stop := by simp [freshVars, startVars, hnew, harmed]
  state_exit := by simp [freshVars, startVars, hnew]
  state_waited h := absurd h (by simp [freshVars, startVars, harmed])

/-- The record of the cursor and of the candles waited for. -/
structure LaneVars.Marked (v : LaneVars) : Prop where
  waited : v.state.barsWaited =
    if v.state.lastObservedBarTs.isSome then some v.barsWaited else none
  unseen : v.state.lastObservedBarTs = none → v.barsWaited = 0 ∧ v.opened = false

theorem freshVars_marked {sig : PaperActionSignal} (harmed : sig.status = .armed)
    (hnew : sig.outcome = {}) : (freshVars sig).Marked where
  waited := by simp [freshVars, startVars, hnew]
  unseen _ := by simp [freshVars, startVars, harmed]

/-- What the loop keeps from one candle to the next. -/
structure LaneVars.Alike (sig : PaperActionSignal) (v w : LaneVars) : Prop where
  same : v.Same w
  inv : v.Inv sig
  inv' : w.Inv sig
  marked : v.Marked

/-- Returns of two loops that agree. -/
def AlikeReturns (c : Candle) (r r' : Except String PaperActionSignal) : Prop :=
  ∃ a b, r = .ok a ∧ r' = .ok b ∧ view b = view a ∧ Returned b c

/-- The run lemma of the lane. -/
theorem run_alike {sig : PaperActionSignal} (hsig : Validated sig) {rows : List Candle}
    (hrows : ∀ c ∈ rows, Priced c) {v w : LaneVars} (h : v.Alike sig w) :
    (∃ k c r r', rows[k]? = some c ∧ (laneLoop sig).run v rows = some (k, r) ∧
      (laneLoop sig).run w rows = some (k, r') ∧ AlikeReturns c r r') ∨
    (laneLoop sig).run v rows = none ∧ (laneLoop sig).run w rows = none ∧
      ((laneLoop sig).last v rows).Alike sig ((laneLoop sig).last w rows) := by
  refine Scanner.run_related _ (R := LaneVars.Alike sig) (E := AlikeReturns) h ?_
  intro v w c hc h
  have hstep := stepsAlike_observeBar hsig (hrows c hc) h.same h.inv h.inv'
  simp only [laneLoop]
  generalize observeBar sig v c = x at hstep
  generalize observeBar sig w c = y at hstep
  cases hstep with
  | returns hview _ hb => exact .inl ⟨_, _, rfl, rfl, _, _, rfl, rfl, hview, hb⟩
  | goesOn hsame hv hw hlast hwaited =>
    exact .inr ⟨rfl, rfl, hsame, hv, hw, by simp [hlast, hwaited], by simp [hlast]⟩

theorem moveToBreakEven_state (sig : PaperActionSignal) (v : LaneVars) (c : Candle) :
    (moveToBreakEven sig v c).state = v.state := by
  simp only [moveToBreakEven]
  split_ifs <;> rfl

theorem bankPartial_state (sig : PaperActionSignal) (v : LaneVars) (c : Candle) :
    (bankPartial sig v c).state = v.state := by
  simp only [bankPartial]
  split_ifs <;> rfl

/-- The cursor behind a candle at which the loop does not return. -/
theorem observeBar_cursor {sig : PaperActionSignal} {v w : LaneVars} {c : Candle}
    (h : observeBar sig v c = .ok w) : w.state.lastObservedBarTs = some c.ts := by
  simp only [observeBar, heldBar, waitBar] at h
  split_ifs at h
  · obtain rfl := Except.ok.inj h
    simp only [recordStops, bankPartial_state, moveToBreakEven_state]
    rfl
  · obtain rfl := Except.ok.inj h
    rfl
  · obtain rfl := Except.ok.inj h
    rfl

/-- A position stays open until the loop returns. -/
theorem observeBar_opened {sig : PaperActionSignal} {v w : LaneVars} {c : Candle}
    (h : observeBar sig v c = .ok w) (hopen : v.opened = true) : w.opened = true := by
  have hmove : ∀ v : LaneVars, (moveToBreakEven sig v c).opened = v.opened := by
    intro v
    simp only [moveToBreakEven]
    split_ifs <;> rfl
  have hbank : ∀ v : LaneVars, (bankPartial sig v c).opened = v.opened := by
    intro v
    simp only [bankPartial]
    split_ifs <;> rfl
  have hbar : heldBar sig (moveCursor v c) c = .ok w := by
    simpa [observeBar, show (moveCursor v c).opened = true from hopen] using h
  simp only [heldBar] at hbar
  split_ifs at hbar
  obtain rfl := Except.ok.inj hbar
  simp only [recordStops, hbank, hmove]
  exact hopen

theorem last_opened {sig : PaperActionSignal} {v : LaneVars} (rows : List Candle)
    (hopen : v.opened = true) : ((laneLoop sig).last v rows).opened = true := by
  obtain ⟨k, hk⟩ := (laneLoop sig).exists_last v rows
  rw [hk]
  refine Scanner.stateAt_induction _ (P := fun v : LaneVars => v.opened = true) hopen (fun v c _ hopen => ?_) k
  simp only [laneLoop]
  cases hbar : observeBar sig v c with
  | error r => exact hopen
  | ok w => exact observeBar_opened hbar hopen

theorem last_cursor {sig : PaperActionSignal} {v : LaneVars} {rows : List Candle} {c : Candle}
    (h : (laneLoop sig).run v rows = none) (hc : rows.getLast? = some c) :
    ((laneLoop sig).last v rows).state.lastObservedBarTs = some c.ts := by
  refine Scanner.last_spec (P := fun c v => v.state.lastObservedBarTs = some c.ts) _ ?_ h hc
  intro v c hopen
  simp only [laneLoop] at hopen ⊢
  cases hbar : observeBar sig v c with
  | error r => simp [hbar] at hopen
  | ok w => exact observeBar_cursor hbar

/-! ## One call -/

/-- What the outcome keeps of the accumulators when no candle made the loop return. -/
structure Stores (v : LaneVars) (o : SignalOutcome) : Prop where
  lastTs : o.lastObservedBarTs = v.state.lastObservedBarTs
  waited : o.barsWaited = v.state.barsWaited
  uncounted : o.lastObservedBarTs = none → o.observedBarsTotal = none ∧ o.newBars = none
  exits : o.exit = none ∧ o.grossPct = none ∧ o.netPct = none
  open_ : v.opened = true → o.entry = some v.entryPx ∧ o.effStop = some v.effStop ∧
    o.partialDone = some v.partialDone ∧ o.beDone = some v.beDone ∧ o.bankedPct = some v.banked ∧
    o.mfePct = some (roundTo 3 v.mfe) ∧ o.maePct = some (roundTo 3 v.mae) ∧
    o.barsHeld = some v.barsHeld
  waiting : v.opened = false → o.entry = none ∧ o.effStop = none ∧ o.partialDone = none ∧
    o.beDone = none ∧ o.bankedPct = none ∧ o.mfePct = none ∧ o.maePct = none ∧ o.barsHeld = none

/-- A signal that is watched still. -/
def watched (sig : PaperActionSignal) (v : LaneVars) (o : SignalOutcome) : PaperActionSignal :=
  { sig with status := if v.opened then .openedPaper else .armed, outcome := o }

section
variable {sig : PaperActionSignal} {v w : LaneVars} {o : SignalOutcome}

theorem Stores.progress_held (h : Stores v o) (hv : v.Inv sig) (rows : List Candle) :
    (legacyProgress (watched sig v o) o rows).barsHeld = v.barsHeld := by
  cases hopen : v.opened with
  | true =>
    obtain ⟨-, -, -, -, -, -, -, hheld⟩ := h.open_ hopen
    simp [legacyProgress, watched, hopen, hheld, hv.held_nonneg]
  | false =>
    obtain ⟨-, -, -, -, -, -, -, hheld⟩ := hv.waiting hopen
    simp [legacyProgress, watched, hopen, hheld]

theorem Stores.progress_waited (h : Stores v o) (hv : v.Inv sig) (hm : v.Marked)
    (rows : List Candle) :
    (legacyProgress (watched sig v o) o rows).barsWaited = v.barsWaited := by
  cases hts : o.lastObservedBarTs with
  | some ts =>
    have hwaited : o.barsWaited = some v.barsWaited := by
      rw [h.waited, hm.waited, ← h.lastTs, hts]
      rfl
    simp [legacyProgress, hwaited, hv.waited_nonneg]
  | none =>
    obtain ⟨hzero, -⟩ := hm.unseen (h.lastTs ▸ hts)
    obtain ⟨htotal, hbars⟩ := h.uncounted hts
    have hwaited : o.barsWaited = none := by
      rw [h.waited, hm.waited, ← h.lastTs, hts]
      rfl
    simp [legacyProgress, hwaited, hts, htotal, hbars, hzero, orElse, armWindowBars]

/-- A stored outcome gives back accumulators that agree with those it was made of. -/
theorem Stores.alike (h : Stores v o) (hv : v.Inv sig) (hm : v.Marked) (rows : List Candle) :
    v.Alike sig (startVars (watched sig v o) (legacyProgress (watched sig v o) o rows)) := by
  have hheld := h.progress_held hv rows
  have hwaited := h.progress_waited hv hm rows
  generalize legacyProgress (watched sig v o) o rows = progress at hheld hwaited
  cases hopen : v.opened with
  | true =>
    obtain ⟨hentry, hstop, hparts', hbe, hbanked, hmfe, hmae, -⟩ := h.open_ hopen
    have hstop' := orElse_eq (d := sig.stopLoss) hv.stop_pos.ne'
    refine ⟨⟨⟨roundTo 3 v.mfe, roundTo 3 v.mae, orElse o.favWaitPct 0, progress.observed, 0, o⟩,
      ?_, roundTo_roundTo 3 _, roundTo_roundTo 3 _, h.waited, h.lastTs⟩, hv, ?_, hm⟩
    · simp [startVars, watched, LaneVars.reload, hopen, hentry, hstop, hstop', hparts', hbe,
        hbanked, hmfe, hmae, hheld, hwaited]
    · exact {
        entry_pos := fun _ => by simpa [startVars, watched, hentry] using hv.entry_pos hopen
        stop_pos := by simpa [startVars, watched, hstop, hstop'] using hv.stop_pos
        held_nonneg := by simpa [startVars, hheld] using hv.held_nonneg
        waited_nonneg := by simpa [startVars, hwaited] using hv.waited_nonneg
        banked_rounded := by simpa [startVars, watched, hbanked] using hv.banked_rounded
        filled := by simpa [startVars, watched, hbanked, hentry, hparts'] using hv.filled
        waiting := by simp [startVars, watched, hopen]
        state_waiting := by simp [startVars, watched, hopen]
        state_stop := by simp [startVars, watched, hopen, hstop, hstop']
        state_exit := h.exits
        state_waited := fun _ => by
          simpa [startVars, watched, h.waited, hwaited] using hv.state_waited hopen }
  | false =>
    obtain ⟨hentry, hstop, hparts', hbe, hbanked, hmfe, hmae, -⟩ := h.waiting hopen
    obtain ⟨ventry, vstop, vpartial, vbe, vbanked, vmfe, vmae, vheld⟩ := hv.waiting hopen
    refine ⟨⟨⟨0, 0, orElse o.favWaitPct 0, progress.observed, 0, o⟩, ?_, by rw [vmfe], by rw [vmae],
      h.waited, h.lastTs⟩, hv, ?_, hm⟩
    · simp [startVars, watched, LaneVars.reload, hopen, hentry, hstop, hparts', hbe, hbanked, hmfe,
        hmae, hheld, hwaited, ventry, vstop, vpartial, vbe, vbanked]
    · exact {
        entry_pos := by simp [startVars, watched, hopen]
        stop_pos := by simpa [startVars, watched, hstop, vstop] using hv.stop_pos
        held_nonneg := by simpa [startVars, hheld] using hv.held_nonneg
        waited_nonneg := by simpa [startVars, hwaited] using hv.waited_nonneg
        banked_rounded := by simp [startVars, watched, hbanked]
        filled := by simp [startVars, watched, hparts']
        waiting := fun _ => by
          simp [startVars, watched, hentry, hstop, hparts', hbe, hbanked, hmfe, hmae, hheld, vheld]
        state_waiting := fun _ => ⟨hentry, hparts', hbe, hbanked, hmfe, hmae, (h.waiting hopen).2.2.2.2.2.2.2⟩
        state_stop := by simp [startVars, watched, hopen, hstop]
        state_exit := h.exits
        state_waited := by simp [startVars, watched, hopen] }

/-- What a call stores when no candle made the loop return. -/
theorem LaneVars.Alike.stores_pending (h : v.Alike sig w)
    (hseen : v.state.lastObservedBarTs.isSome) (s : PaperActionSignal) :
    Stores v (pendingSignal s w).outcome := by
  have hwaited : v.state.barsWaited = some v.barsWaited := by
    rw [h.marked.waited, if_pos hseen]
  have hinv' := h.inv'
  obtain ⟨m, rfl, hm⟩ := h.same
  have hexits : m.state.exit = none ∧ m.state.grossPct = none ∧ m.state.netPct = none :=
    hinv'.state_exit
  have hstop : m.state.effStop = if v.opened then some v.effStop else none := hinv'.state_stop
  have hseen' : m.state.lastObservedBarTs ≠ none := by
    rw [hm.lastTs]
    exact Option.isSome_iff_ne_none.1 hseen
  cases hopen : v.opened with
  | true =>
    exact {
      lastTs := by simpa [pendingSignal, pendingOutcome, LaneVars.reload, hopen] using hm.lastTs
      waited := by simp [pendingSignal, pendingOutcome, LaneVars.reload, hopen, hwaited]
      uncounted := fun hnone => absurd hnone (by
        simpa [pendingSignal, pendingOutcome, LaneVars.reload, hopen] using hseen')
      exits := by simpa [pendingSignal, pendingOutcome, LaneVars.reload, hopen] using hexits
      open_ := fun _ => by
        simp [pendingSignal, pendingOutcome, LaneVars.reload, hopen, hm.mfe, hm.mae,
          h.inv.banked_rounded]
      waiting := by simp [hopen] }
  | false =>
    obtain ⟨hentry, hparts', hbe, hbanked, hmfe, hmae, hheld⟩ := hinv'.state_waiting hopen
    exact {
      lastTs := by simpa [pendingSignal, pendingOutcome, LaneVars.reload, hopen] using hm.lastTs
      waited := by simp [pendingSignal, pendingOutcome, LaneVars.reload, hopen, hwaited]
      uncounted := fun hnone => absurd hnone (by
        simpa [pendingSignal, pendingOutcome, LaneVars.reload, hopen] using hseen')
      exits := by simpa [pendingSignal, pendingOutcome, LaneVars.reload, hopen] using hexits
      open_ := by simp [hopen]
      waiting := fun _ => by
        have hstop : m.state.effStop = none := by simpa [hopen] using hstop
        simpa [pendingSignal, pendingOutcome, LaneVars.reload, hopen, hstop] using
          ⟨hentry, hparts', hbe, hbanked, hmfe, hmae, hheld⟩ }

/-- The stored fields are those of the view. -/
theorem Stores.view_eq {o' : SignalOutcome} (h : Stores v o) (h' : Stores v o')
    (hresult : o'.result = o.result) : view (watched sig v o') = view (watched sig v o) := by
  have hlast := h'.lastTs.trans h.lastTs.symm
  have hwaited := h'.waited.trans h.waited.symm
  obtain ⟨hexit, hgross, hnet⟩ := h.exits
  obtain ⟨hexit', hgross', hnet'⟩ := h'.exits
  cases hopen : v.opened with
  | true =>
    obtain ⟨h₁, h₂, h₃, -, h₅, h₆, h₇, h₈⟩ := h.open_ hopen
    obtain ⟨h₁', h₂', h₃', -, h₅', h₆', h₇', h₈'⟩ := h'.open_ hopen
    simp only [view, watched, hlast, hwaited, hresult, hexit, hgross, hnet, hexit', hgross', hnet',
      h₁, h₂, h₃, h₅, h₆, h₇, h₈, h₁', h₂', h₃', h₅', h₆', h₇', h₈']
  | false =>
    obtain ⟨h₁, h₂, h₃, -, h₅, h₆, h₇, h₈⟩ := h.waiting hopen
    obtain ⟨h₁', h₂', h₃', -, h₅', h₆', h₇', h₈'⟩ := h'.waiting hopen
    simp only [view, watched, hlast, hwaited, hresult, hexit, hgross, hnet, hexit', hgross', hnet',
      h₁, h₂, h₃, h₅, h₆, h₇, h₈, h₁', h₂', h₃', h₅', h₆', h₇', h₈']

/-- A call without fresh candles leaves what is stored. -/
theorem Stores.idle (h : Stores v o) (opened : Bool) :
    Stores v (pendingOutcome { o with freshBarsThisCycle := some 0 } opened) where
  lastTs := h.lastTs
  waited := h.waited
  uncounted := h.uncounted
  exits := h.exits
  open_ := h.open_
  waiting := h.waiting

end

/-- The accumulators behind the candles of a watched signal. -/
def lastVars (sig : PaperActionSignal) (rows : List Candle) : LaneVars :=
  (laneLoop sig).last (freshVars sig) rows

/-- A signal that has been observed without a return over some candles. -/
structure Watching (sig : PaperActionSignal) (rows : List Candle) (o : SignalOutcome) : Prop where
  run : (laneLoop sig).run (freshVars sig) rows = none
  inv : (lastVars sig rows).Inv sig
  marked : (lastVars sig rows).Marked
  stores : Stores (lastVars sig rows) o

/-- The cursor is the last candle, or the boundary where there was none. -/
def cursorOf (sig : PaperActionSignal) (rows : List Candle) : ℤ :=
  (rows.getLast?.map Candle.ts).getD sig.boundaryTs

section
variable {sig : PaperActionSignal} {rows : List Candle} {o : SignalOutcome}

theorem Watching.lastTs (h : Watching sig rows o) (hnew : sig.outcome = {}) :
    o.lastObservedBarTs = rows.getLast?.map Candle.ts := by
  rw [h.stores.lastTs]
  cases hlast : rows.getLast? with
  | none =>
    obtain rfl := List.getLast?_eq_none_iff.1 hlast
    simp [lastVars, Scanner.last, freshVars, startVars, hnew]
  | some c => exact last_cursor h.run hlast

/-- The cursor that the next call starts from, as long as no candle has the timestamp zero. -/
theorem Watching.cursor (h : Watching sig rows o) (hnew : sig.outcome = {})
    (hzero : ∀ c ∈ rows, c.ts ≠ 0) (s : PaperActionSignal) (hs : s.boundaryTs = sig.boundaryTs)
    (l : List Candle) : (legacyProgress s o l).cursor = cursorOf sig rows := by
  have hts := h.lastTs hnew
  cases hlast : rows.getLast? with
  | none =>
    have hnone : o.lastObservedBarTs = none := by simpa [hlast] using hts
    obtain ⟨htotal, hbars⟩ := h.stores.uncounted hnone
    simp [legacyProgress, cursorOf, hlast, hnone, htotal, hbars, hs]
  | some c =>
    have hsome : o.lastObservedBarTs = some c.ts := by simpa [hlast] using hts
    have hne := hzero c (List.mem_of_getLast? hlast)
    simp [legacyProgress, cursorOf, hlast, hsome, orElse_eq hne]

theorem LaneVars.Same.opened_eq {v w : LaneVars} (h : v.Same w) : w.opened = v.opened := by
  obtain ⟨m, rfl, -⟩ := h
  rfl

/-- What a call leaves is watched still; a position that was open is open. -/
theorem pendingSignal_watched {v v' w' : LaneVars} (h : v'.Same w')
    (hopen : v.opened = true → v'.opened = true) :
    pendingSignal (watched sig v o) w' =
      watched sig v' (pendingSignal (watched sig v o) w').outcome := by
  have hstatus : (pendingSignal (watched sig v o) w').status =
      if v'.opened then .openedPaper else .armed := by
    simp only [pendingSignal, watched, h.opened_eq]
    cases hv' : v'.opened with
    | true => rfl
    | false =>
      have hv : v.opened = false := by
        by_contra hv
        exact absurd (hopen (by simpa using hv)) (by simp [hv'])
      simp [hv]
  unfold watched at hstatus ⊢
  rw [← hstatus]
  rfl

/-- A call on a watched signal: the loop goes on over its fresh candles. -/
theorem Watching.observe (hsig : Validated sig) (h : Watching sig rows o) {fresh batch : List Candle}
    (hfresh : (orderedPostBoundary sig batch).filter (fun c =>
      (legacyProgress (watched sig (lastVars sig rows) o) o (orderedPostBoundary sig batch)).cursor <
        c.ts) = fresh)
    (hpriced : ∀ c ∈ fresh, Priced c) :
    (∃ k c a b, (rows ++ fresh)[k]? = some c ∧
      (laneLoop sig).run (freshVars sig) (rows ++ fresh) = some (k, .ok a) ∧
      PaperLane.observe (watched sig (lastVars sig rows) o) batch = .ok b ∧ view b = view a ∧
      Returned b c) ∨
    ∃ o', PaperLane.observe (watched sig (lastVars sig rows) o) batch =
        .ok (watched sig (lastVars sig (rows ++ fresh)) o') ∧ Watching sig (rows ++ fresh) o' ∧
      o'.result = some (if (lastVars sig (rows ++ fresh)).opened then .pendingOpen
        else .pendingArm) := by
  have hactive : ¬ ((watched sig (lastVars sig rows) o).status ≠ .armed ∧
      (watched sig (lastVars sig rows) o).status ≠ .openedPaper) := by
    simp only [watched]
    split_ifs <;> simp
  have hrows : orderedPostBoundary (watched sig (lastVars sig rows) o) batch =
      orderedPostBoundary sig batch := rfl
  have hloop : laneLoop (watched sig (lastVars sig rows) o) = laneLoop sig := rfl
  have hfresh' : (orderedPostBoundary (watched sig (lastVars sig rows) o) batch).filter (fun c =>
      (legacyProgress (watched sig (lastVars sig rows) o)
        (watched sig (lastVars sig rows) o).outcome
        (orderedPostBoundary (watched sig (lastVars sig rows) o) batch)).cursor < c.ts) = fresh :=
    hfresh
  unfold PaperLane.observe
  simp only [if_neg hactive, hfresh', hloop]
  by_cases hnil : fresh = []
  · subst hnil
    refine .inr ⟨pendingOutcome { o with freshBarsThisCycle := some 0 }
      (lastVars sig rows).opened, ?_, ?_, ?_⟩
    · rw [if_pos rfl, List.append_nil]
      cases hopen : (lastVars sig rows).opened <;> simp [watched, hopen]
    · rw [List.append_nil]
      exact ⟨h.run, h.inv, h.marked, h.stores.idle _⟩
    · rw [List.append_nil]
      rfl
  · rw [if_neg hnil]
    have halike := h.stores.alike h.inv h.marked (orderedPostBoundary sig batch)
    have hrun : (laneLoop sig).run (freshVars sig) (rows ++ fresh) =
        ((laneLoop sig).run (lastVars sig rows) fresh).map fun r => (rows.length + r.1, r.2) :=
      (laneLoop sig).run_append fresh h.run
    have hlast : lastVars sig (rows ++ fresh) = (laneLoop sig).last (lastVars sig rows) fresh :=
      (laneLoop sig).last_append fresh h.run
    rcases run_alike hsig hpriced halike with
      ⟨k, c, r, r', hc, hv, hw, a, b, rfl, rfl, hview, hb⟩ | ⟨hv, hw, hlike⟩
    · refine .inl ⟨rows.length + k, c, a, b, ?_, ?_, ?_, hview, hb⟩
      · rw [List.getElem?_append_right (by omega), Nat.add_sub_cancel_left, hc]
      · rw [hrun, hv]
        rfl
      · exact hw ▸ rfl
    · rw [← hlast] at hlike
      have hnone : (laneLoop sig).run (freshVars sig) (rows ++ fresh) = none := by
        rw [hrun, hv]
        rfl
      obtain ⟨c, hc⟩ : ∃ c, (rows ++ fresh).getLast? = some c :=
        Option.ne_none_iff_exists'.1 (by simp [hnil])
      have hseen := Option.isSome_iff_exists.2 ⟨c.ts, last_cursor hnone hc⟩
      have hstores := hlike.stores_pending hseen (watched sig (lastVars sig rows) o)
      refine .inr ⟨_, ?_, ⟨hnone, hlike.inv, hlike.marked, hstores⟩, ?_⟩
      · exact hw ▸ congrArg Except.ok (pendingSignal_watched hlike.same
          (fun hopen => (congrArg LaneVars.opened hlast).trans (last_opened fresh hopen)))
      · simp only [pendingSignal, pendingOutcome, hlike.same.opened_eq]

end

/-! ## Calls one after another -/

/-- Where the calls on a signal stand that were given some candles: it is watched still, or a
candle made the loop return. -/
inductive Observed (sig : PaperActionSignal) (seen : List Candle) (called : Bool) :
    PaperActionSignal → Prop
  | watching {o : SignalOutcome} (h : Watching sig (orderedPostBoundary sig seen) o)
      (hresult : called = true → o.result =
        some (if (lastVars sig (orderedPostBoundary sig seen)).opened then .pendingOpen
          else .pendingArm)) :
      Observed sig seen called (watched sig (lastVars sig (orderedPostBoundary sig seen)) o)
  | finished {a b : PaperActionSignal} {k : ℕ} {c : Candle}
      (hrun : (laneLoop sig).run (freshVars sig) (orderedPostBoundary sig seen) = some (k, .ok a))
      (hc : (orderedPostBoundary sig seen)[k]? = some c) (hview : view b = view a)
      (hb : Returned b c) : Observed sig seen called b

/-- The candles that a signal is observed over. -/
structure Observable (sig : PaperActionSignal) (candles : List Candle) : Prop where
  distinct : Distinct candles
  behind : ∀ c ∈ candles, sig.boundaryTs < c.ts
  priced : ∀ c ∈ candles, Priced c

/-- No candle is new and older than one that was processed. -/
def InOrder (s : PaperActionSignal) (seen batch : List Candle) : Prop :=
  ∀ c ∈ batch, c ∈ seen ∨ ∀ ts, s.outcome.lastObservedBarTs = some ts → ts < c.ts

/-- Every batch is in order when it is delivered. -/
def Delivers (s : PaperActionSignal) (seen : List Candle) : List (List Candle) → Prop
  | [] => True
  | batch :: rest => InOrder s seen batch ∧
      ∀ s', observe s batch = .ok s' → Delivers s' (seen ++ batch) rest

section
variable {sig s : PaperActionSignal} {seen batch : List Candle}

theorem Observable.mem_rows (h : Observable sig seen) {c : Candle} :
    c ∈ orderedPostBoundary sig seen ↔ c ∈ seen := by
  rw [mem_orderedPostBoundary h.distinct]
  exact ⟨And.left, fun hc => ⟨hc, h.behind c hc⟩⟩

theorem Observable.of_subset {candles : List Candle} (h : Observable sig candles)
    (hsub : ∀ c ∈ seen, c ∈ candles) : Observable sig seen :=
  ⟨fun a ha b hb => h.distinct a (hsub a ha) b (hsub b hb), fun c hc => h.behind c (hsub c hc),
    fun c hc => h.priced c (hsub c hc)⟩

/-- No row lies behind the cursor. -/
theorem le_cursorOf (c : Candle) (hc : c ∈ orderedPostBoundary sig seen) :
    c.ts ≤ cursorOf sig (orderedPostBoundary sig seen) := by
  have hpair := orderedPostBoundary_pairwise sig seen
  obtain ⟨l, hl⟩ : ∃ l, (orderedPostBoundary sig seen).getLast? = some l :=
    Option.ne_none_iff_exists'.1 (by simpa using List.ne_nil_of_mem hc)
  obtain ⟨front, heq⟩ := List.getLast?_eq_some_iff.1 hl
  rw [cursorOf, hl]
  rw [heq] at hc hpair
  rcases List.mem_append.1 hc with hc | hc
  · exact ((List.pairwise_append.1 hpair).2.2 c hc l (by simp)).le
  · exact (congrArg Candle.ts (List.mem_singleton.1 hc)).le

/-- The rows of a further batch: those that were there, then the fresh ones. -/
theorem rows_append (h : Observable sig (seen ++ batch))
    (hnew : ∀ c ∈ batch, c ∈ seen ∨ cursorOf sig (orderedPostBoundary sig seen) < c.ts) :
    orderedPostBoundary sig (seen ++ batch) = orderedPostBoundary sig seen ++
      (orderedPostBoundary sig batch).filter fun c =>
        cursorOf sig (orderedPostBoundary sig seen) < c.ts := by
  have hseen : Observable sig seen := h.of_subset fun c hc => List.mem_append_left _ hc
  have hbatch : Observable sig batch := h.of_subset fun c hc => List.mem_append_right _ hc
  refine eq_of_ascending Candle.ts (orderedPostBoundary_pairwise _ _) ?_ fun c => ?_
  · refine List.pairwise_append.2 ⟨orderedPostBoundary_pairwise _ _,
      (orderedPostBoundary_pairwise _ _).filter _, fun a ha b hb => ?_⟩
    exact (le_cursorOf a ha).trans_lt (by simpa using (List.mem_filter.1 hb).2)
  · rw [h.mem_rows]
    simp only [List.mem_append, List.mem_filter, decide_eq_true_eq, hseen.mem_rows, hbatch.mem_rows]
    constructor
    · rintro (hc | hc)
      · exact .inl hc
      · exact (hnew c hc).imp id fun hlt => ⟨hc, hlt⟩
    · rintro (hc | ⟨hc, -⟩)
      · exact .inl hc
      · exact .inr hc

/-- A further batch changes nothing up to a candle that it does not reach. -/
theorem take_rows_append (h : Observable sig (seen ++ batch)) {k : ℕ} {c : Candle}
    (hc : (orderedPostBoundary sig seen)[k]? = some c)
    (hnew : ∀ b ∈ batch, b ∈ seen ∨ c.ts < b.ts) :
    (orderedPostBoundary sig seen).take (k + 1) =
      (orderedPostBoundary sig (seen ++ batch)).take (k + 1) := by
  have hseen : Observable sig seen := h.of_subset fun c hc => List.mem_append_left _ hc
  have htake := take_eq_filter (orderedPostBoundary_pairwise sig seen) hc
  have hfilter : (orderedPostBoundary sig (seen ++ batch)).filter (fun b => b.ts ≤ c.ts) =
      (orderedPostBoundary sig seen).filter fun b => b.ts ≤ c.ts := by
    refine eq_of_ascending Candle.ts ((orderedPostBoundary_pairwise _ _).filter _)
      ((orderedPostBoundary_pairwise _ _).filter _) fun b => ?_
    simp only [List.mem_filter, h.mem_rows, hseen.mem_rows, List.mem_append, decide_eq_true_eq]
    constructor
    · rintro ⟨hb | hb, hle⟩
      · exact ⟨hb, hle⟩
      · exact ⟨(hnew b hb).resolve_right (not_lt.2 hle), hle⟩
    · rintro ⟨hb, hle⟩
      exact ⟨.inl hb, hle⟩
  have hlength : ((orderedPostBoundary sig seen).take (k + 1)).length = k + 1 := by
    rw [List.length_take, Nat.min_eq_left (List.getElem?_eq_some_iff.1 hc).1]
  rw [← filter_append_filter (orderedPostBoundary_pairwise sig (seen ++ batch)) c.ts, hfilter,
    ← htake, List.take_append_of_le_length hlength.ge, List.take_take, min_self]

/-- The call lemma: a batch in order moves the signal to where its candles lead. -/
theorem Observed.observe (hsig : Validated sig) (hfirst : sig.outcome = {}) {called : Bool}
    (h : Observed sig seen called s) (hcandles : Observable sig (seen ++ batch))
    (hzero : ∀ c ∈ seen, c.ts ≠ 0) (horder : InOrder s seen batch) :
    ∃ s', PaperLane.observe s batch = .ok s' ∧ Observed sig (seen ++ batch) true s' := by
  have hseen : Observable sig seen := hcandles.of_subset fun c hc => List.mem_append_left _ hc
  have hbatch : Observable sig batch := hcandles.of_subset fun c hc => List.mem_append_right _ hc
  cases h with
  | @watching o h hresult =>
    have hcursor := h.cursor hfirst (fun c hc => hzero c (hseen.mem_rows.1 hc))
      (watched sig (lastVars sig (orderedPostBoundary sig seen)) o) rfl
      (orderedPostBoundary sig batch)
    have hnew : ∀ c ∈ batch, c ∈ seen ∨ cursorOf sig (orderedPostBoundary sig seen) < c.ts := by
      intro c hc
      refine (horder c hc).imp id fun hlt => ?_
      have hts := h.lastTs hfirst
      unfold cursorOf
      cases hlast : (orderedPostBoundary sig seen).getLast? with
      | none => exact hbatch.behind c hc
      | some l => exact hlt l.ts (by simpa [watched, hlast] using hts)
    have hrows := rows_append hcandles hnew
    have hpriced : ∀ c ∈ (orderedPostBoundary sig batch).filter fun c =>
        cursorOf sig (orderedPostBoundary sig seen) < c.ts, Priced c :=
      fun c hc => hbatch.priced c (hbatch.mem_rows.1 (List.mem_of_mem_filter hc))
    rcases h.observe hsig (by rw [hcursor]) hpriced with
      ⟨k, c, a, b, hc, hrun, hcall, hview, hb⟩ | ⟨o', hcall, hwatch, hresult'⟩
    · rw [← hrows] at hc hrun
      exact ⟨b, hcall, .finished hrun hc hview hb⟩
    · rw [← hrows] at hcall hwatch hresult'
      exact ⟨_, hcall, .watching hwatch fun _ => hresult'⟩
  | @finished a b k c hrun hc hview hb =>
    have hcall : PaperLane.observe s batch = .ok s := by
      refine if_pos ?_
      rcases hb.terminal with hst | hst <;> simp [hst]
    have hnew : ∀ b ∈ batch, b ∈ seen ∨ c.ts < b.ts :=
      fun b hbatch => (horder b hbatch).imp id fun hlt => hlt c.ts hb.cursor
    have htake := take_rows_append hcandles hc hnew
    refine ⟨s, hcall, .finished (Scanner.run_of_prefix _ hrun htake) ?_ hview hb⟩
    have hget := congrArg (·[k]?) htake
    simpa [List.getElem?_take, hc] using hget.symm

/-- The run rule of the calls. -/
theorem Observed.observeAll (hsig : Validated sig) (hfirst : sig.outcome = {}) {called : Bool}
    {batches : List (List Candle)} (h : Observed sig seen called s)
    (hcandles : Observable sig (seen ++ batches.flatten))
    (hzero : ∀ c ∈ seen ++ batches.flatten, c.ts ≠ 0) (horder : Delivers s seen batches) :
    ∃ s', PaperLane.observeAll s batches = .ok s' ∧
      Observed sig (seen ++ batches.flatten) (called || !batches.isEmpty) s' := by
  induction batches generalizing s seen called with
  | nil => exact ⟨s, rfl, by simpa using h⟩
  | cons batch rest ih =>
    obtain ⟨hfirstBatch, hrest⟩ := horder
    rw [List.flatten_cons, ← List.append_assoc] at hcandles hzero ⊢
    obtain ⟨s₁, hcall, hs₁⟩ := h.observe hsig hfirst
      (hcandles.of_subset fun c hc => List.mem_append_left _ hc)
      (fun c hc => hzero c (List.mem_append_left _ (List.mem_append_left _ hc))) hfirstBatch
    obtain ⟨s', hall, hs'⟩ := ih hs₁ hcandles hzero (hrest s₁ hcall)
    refine ⟨s', ?_, by simpa using hs'⟩
    simp only [PaperLane.observeAll, List.foldlM_cons, hcall]
    exact hall

/-- Where the same candles led in two ways, the signals look alike. -/
theorem Observed.view_eq {s' : PaperActionSignal} {seen' : List Candle}
    (h : Observed sig seen true s) (h' : Observed sig seen' true s')
    (hrows : orderedPostBoundary sig seen' = orderedPostBoundary sig seen) : view s' = view s := by
  cases h with
  | @watching o h hresult =>
    cases h' with
    | @watching o' h' hresult' =>
      rw [hrows] at h' hresult' ⊢
      exact h.stores.view_eq h'.stores ((hresult' rfl).trans (hresult rfl).symm)
    | finished hrun' => rw [hrows, h.run] at hrun'; cases hrun'
  | finished hrun hc hview =>
    cases h' with
    | watching h' => rw [← hrows, h'.run] at hrun; cases hrun
    | finished hrun' hc' hview' =>
      rw [hrows, hrun] at hrun'
      obtain ⟨rfl, rfl⟩ := by simpa using hrun'
      exact hview'.trans hview.symm

end

end ResearchLab.PaperLane
