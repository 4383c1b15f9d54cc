import Mathlib
import ResearchLab.Foundation.Checks
import ResearchLab.PaperLane.Cycle

/-!
# Stranded signals

The observation phase ages a signal out only behind usable candles, and nothing writes the count
of missing data that the age-out reads. A signal whose data cannot be used keeps its status, past
its expiry and after any number of observations.
-/
namespace ResearchLab.PaperLane
open Foundation
open Simulation (Candle)

/-! ## What an observation changes -/

/-- Everything but the status and the outcome is as before. -/
def SameCard (a b : PaperActionSignal) : Prop := b = { a with status := b.status, outcome := b.outcome }

theorem close_sameCard {sig s : PaperActionSignal} {v : LaneVars} {kind : LaneResult} {exitPx : ℚ}
    (h : close sig v kind exitPx = .ok s) : SameCard sig s ∧ s.status = .closedPaper := by
  obtain ⟨reconciliation, _, h⟩ := bind_eq_ok.1 h
  obtain ⟨_, h⟩ := check_eq_ok.1 h
  obtain ⟨ledger, _, h⟩ := bind_eq_ok.1 h
  cases h
  exact ⟨rfl, rfl⟩

/-- The statuses that an observation of an armed or an opened signal may leave. -/
structure ObservedAs (sig s : PaperActionSignal) : Prop where
  card : SameCard sig s
  status : s.status = sig.status ∨ s.status = .openedPaper ∨ s.status = .closedPaper ∨
    s.status = .expired

theorem observeBar_observedAs {sig s : PaperActionSignal} {v : LaneVars} {c : Candle}
    (h : observeBar sig v c = .error (.ok s)) : ObservedAs sig s := by
  have hexpired : ∀ w, ObservedAs sig (expireNoEntry sig w) := fun w =>
    ⟨rfl, .inr (.inr (.inr rfl))⟩
  have hclosed : ∀ {w : LaneVars} {kind : LaneResult} {exitPx : ℚ},
      close sig w kind exitPx = .ok s → ObservedAs sig s := fun h =>
    ⟨(close_sameCard h).1, .inr (.inr (.inl (close_sameCard h).2))⟩
  unfold observeBar at h
  dsimp only at h
  split at h
  · unfold heldBar at h
    dsimp only at h
    split_ifs at h
    · exact hclosed (Except.error.inj h)
    · exact hclosed (Except.error.inj h)
    · exact hclosed (Except.error.inj h)
  · unfold waitBar at h
    dsimp only at h
    split_ifs at h
    · exact Except.ok.inj (Except.error.inj h) ▸ hexpired _
    · exact Except.ok.inj (Except.error.inj h) ▸ hexpired _

theorem observe_observedAs {sig s : PaperActionSignal} {candles : List Candle}
    (h : observe sig candles = .ok s) : ObservedAs sig s := by
  unfold observe at h
  dsimp only at h
  split_ifs at h
  · cases h
    exact ⟨rfl, .inl rfl⟩
  · cases h
    exact ⟨rfl, .inl rfl⟩
  split at h
  · next k r hrun =>
    obtain ⟨_, c, _, hexit⟩ := (laneLoop sig).run_eq_some.1 hrun
    dsimp only [laneLoop] at hexit
    split at hexit
    · next r' hbar =>
      obtain rfl : r' = r := Option.some.inj hexit
      exact observeBar_observedAs (h ▸ hbar)
    · cases hexit
  · cases h
    refine ⟨rfl, ?_⟩
    simp only [pendingSignal]
    split_ifs
    · exact .inr (.inl rfl)
    · exact .inl rfl

/-! ## A visit -/

theorem isTerminal_eq_false_iff {w : Watch} : w.isTerminal = false ↔ w.lane.status ∈ activeStatuses := by
  rw [Watch.isTerminal]
  cases w.lane.status <;> decide

section Visit

variable {incidentId : String → DataStatus → ℤ → String} {observation : MarketDataObservation}
  {now : ℚ} {w v : Watch}

/-- Data that cannot be used leaves the lane as it was. -/
theorem visit_unusable (hdata : observation.usable = false)
    (h : visit incidentId observation now w = .ok v) : v.lane = w.lane := by
  rw [visit, if_pos hdata] at h
  cases h
  rfl

theorem review_isTerminal (w : Watch) : w.review.isTerminal = w.isTerminal := by
  rw [Watch.review]
  split_ifs with h
  · rcases h with h | h <;> simp [Watch.isTerminal, Watch.withStatus, h, terminalStatuses]
  · rfl

theorem recordDataRecovery_lane (now : ℚ) (w : Watch) : (recordDataRecovery now w).lane = w.lane := by
  unfold recordDataRecovery
  dsimp only
  split_ifs <;> rfl

theorem recordDataRecovery_noDataCount (now : ℚ) (w : Watch) :
    (recordDataRecovery now w).noDataCount = w.noDataCount := by
  unfold recordDataRecovery
  dsimp only
  split_ifs <;> rfl

/-- The parts of a signal that no visit changes. -/
structure SameWatch (w v : Watch) : Prop where
  signalId : v.signalId = w.signalId
  dedupKey : v.dedupKey = w.dedupKey
  source : v.lane.source = w.lane.source
  expiresAt : v.lane.expiresAt = w.lane.expiresAt

theorem ageOut_sameWatch (w : Watch) (now : ℚ) (count : ℤ) : SameWatch w (w.ageOut now count) := by
  unfold Watch.ageOut
  split_ifs <;> exact ⟨rfl, rfl, rfl, rfl⟩

theorem review_sameWatch (w : Watch) : SameWatch w w.review := by
  unfold Watch.review
  split_ifs <;> exact ⟨rfl, rfl, rfl, rfl⟩

theorem SameWatch.trans {a b c : Watch} (hab : SameWatch a b) (hbc : SameWatch b c) :
    SameWatch a c :=
  ⟨hbc.signalId.trans hab.signalId, hbc.dedupKey.trans hab.dedupKey,
    hbc.source.trans hab.source, hbc.expiresAt.trans hab.expiresAt⟩

theorem recordDataRecovery_sameWatch (now : ℚ) (w : Watch) :
    SameWatch w (recordDataRecovery now w) := by
  unfold recordDataRecovery
  dsimp only
  split_ifs <;> exact ⟨rfl, rfl, rfl, rfl⟩

/-- Over usable candles: the lane first, then the age where it is not terminal, then the review. -/
theorem visit_usable (hdata : observation.usable = true)
    (h : visit incidentId observation now w = .ok v) :
    ∃ lane, observe w.lane observation.rows = .ok lane ∧
      v = (if { recordDataRecovery now w with lane := lane }.isTerminal then
          { recordDataRecovery now w with lane := lane }
        else { recordDataRecovery now w with lane := lane }.ageOut now maxNoData).review := by
  rw [visit, if_neg (by simp [hdata])] at h
  obtain ⟨lane, hlane, h⟩ := bind_eq_ok.1 h
  rw [recordDataRecovery_lane] at hlane
  cases h
  exact ⟨lane, hlane, rfl⟩

theorem visit_sameWatch (h : visit incidentId observation now w = .ok v) : SameWatch w v := by
  cases hdata : observation.usable with
  | false =>
    rw [visit, if_pos hdata] at h
    cases h
    exact ⟨rfl, rfl, rfl, rfl⟩
  | true =>
    obtain ⟨lane, hlane, rfl⟩ := visit_usable hdata h
    have hcard := (observe_observedAs hlane).card
    have hobserved : SameWatch w { recordDataRecovery now w with lane := lane } := by
      have hsame := recordDataRecovery_sameWatch now w
      refine ⟨hsame.signalId, hsame.dedupKey, ?_, ?_⟩ <;> rw [hcard]
    refine .trans ?_ (review_sameWatch _)
    split_ifs
    · exact hobserved
    · exact hobserved.trans (ageOut_sameWatch _ _ _)

/-- The candles fill the entry, and the position is still open behind them. -/
def LeavesOpen (w : Watch) (observation : MarketDataObservation) : Prop :=
  ∃ lane, observe w.lane observation.rows = .ok lane ∧ lane.status = .openedPaper

/-- An armed signal past its expiry is terminal after a visit if and only if its data was usable
and did not open it. -/
theorem visit_pastExpiry (harmed : w.lane.status = .armed) (hpast : w.pastExpiry now = true)
    (h : visit incidentId observation now w = .ok v) :
    v.isTerminal = true ↔ observation.usable = true ∧
      (LeavesOpen w observation → maxNoData ≤ w.noDataCount.getD 0) := by
  cases hdata : observation.usable with
  | false =>
    rw [Watch.isTerminal, visit_unusable hdata h, harmed]
    simp [terminalStatuses]
  | true =>
    obtain ⟨lane, hlane, rfl⟩ := visit_usable hdata h
    have hcard := (observe_observedAs hlane).card
    have hleaves : LeavesOpen w observation ↔ lane.status = .openedPaper := by
      refine ⟨?_, fun hopen => ⟨lane, hlane, hopen⟩⟩
      rintro ⟨lane', hlane', hopen⟩
      rw [hlane] at hlane'
      exact Except.ok.inj hlane' ▸ hopen
    have hexpired : { recordDataRecovery now w with lane := lane }.pastExpiry now = true := by
      rw [Watch.pastExpiry, hcard]
      exact hpast
    rw [review_isTerminal, hleaves, ← recordDataRecovery_noDataCount now w]
    simp only [true_and]
    rcases (observe_observedAs hlane).status with hstatus | hstatus | hstatus | hstatus
    · rw [harmed] at hstatus
      simp [Watch.isTerminal, Watch.ageOut, Watch.isObserved, Watch.withStatus, hstatus,
        terminalStatuses, hexpired]
    · by_cases hcount : maxNoData ≤ (recordDataRecovery now w).noDataCount.getD 0
      · simp [Watch.isTerminal, Watch.ageOut, Watch.isObserved, Watch.withStatus, hstatus,
          terminalStatuses, hcount]
      · simp [Watch.isTerminal, Watch.ageOut, Watch.isObserved, hstatus, terminalStatuses, hcount]
    · simp [Watch.isTerminal, hstatus, terminalStatuses]
    · simp [Watch.isTerminal, hstatus, terminalStatuses]

end Visit

/-! ## A signal in a cycle -/

section Cycle

variable {incidentId : String → DataStatus → ℤ → String} {inp : CycleInput}

/-- What the phase did to the signal at a position. -/
inductive PhaseAt (incidentId : String → DataStatus → ℤ → String) (inp : CycleInput) (w : Watch) :
    Reached → Prop
  | passed : PhaseAt incidentId inp w (w, none)
  | visited {observation : MarketDataObservation} {v : Watch} (hobserved : w.isObserved = true)
      (hvisit : visit incidentId observation inp.now w = .ok v) :
      PhaseAt incidentId inp w (v, some observation)

theorem phaseAt_untouched (ws : List Watch) :
    List.Forall₂ (PhaseAt incidentId inp) ws (untouched ws) := by
  rw [untouched, List.forall₂_map_right_iff]
  exact List.forall₂_same.2 fun w _ => .passed

theorem observePhase_forall₂ (k : ScanState) (ws : List Watch) :
    List.Forall₂ (PhaseAt incidentId inp) ws (observePhase incidentId inp k ws).1 := by
  induction ws generalizing k with
  | nil => exact .nil
  | cons w ws ih =>
    rw [observePhase]
    split_ifs with hstop hidle hseen hnetwork
    · exact phaseAt_untouched _
    · exact .cons .passed (ih _)
    · exact phaseAt_untouched _
    · exact phaseAt_untouched _
    dsimp only
    cases hvisit : visit incidentId (observationOf inp k.networkFetches w) inp.now w with
    | error e => exact phaseAt_untouched _
    | ok v => exact .cons (.visited (by simpa using hidle) hvisit) (ih _)

variable (incidentId inp) in
/-- An exception ended the cycle in its observation phase. -/
def aborted (store : List Watch) : Bool :=
  (observePhase incidentId inp {} (store.map (invalidateStale inp))).2

/-- A stored signal that a cycle reached. -/
theorem runCycle_reached {store : List Watch} {i : ℕ} {after : Watch}
    {observation : MarketDataObservation}
    (h : (runCycle incidentId inp store)[i]? = some (after, some observation)) :
    ∃ w v, store[i]? = some w ∧ (invalidateStale inp w).isObserved = true ∧
      visit incidentId observation inp.now (invalidateStale inp w) = .ok v ∧
      after = if aborted incidentId inp store then v else supersede inp v := by
  have hphase : List.Forall₂ (PhaseAt incidentId inp) (store.map (invalidateStale inp))
      (observePhase incidentId inp {} (store.map (invalidateStale inp))).1 :=
    observePhase_forall₂ {} _
  have hat : ∀ {v : Watch},
      (observePhase incidentId inp {} (store.map (invalidateStale inp))).1[i]? =
        some (v, some observation) → ∃ w, store[i]? = some w ∧
          (invalidateStale inp w).isObserved = true ∧
          visit incidentId observation inp.now (invalidateStale inp w) = .ok v := by
    intro v hv
    obtain ⟨hi, hget⟩ := List.getElem?_eq_some_iff.1 hv
    have hlen := hphase.length_eq
    rw [List.length_map] at hlen
    have hrel := (List.forall₂_iff_get.1 hphase).2 i (by simpa using hlen ▸ hi) hi
    rw [List.get_eq_getElem, List.get_eq_getElem, hget, List.getElem_map] at hrel
    refine ⟨store[i], List.getElem?_eq_getElem _, ?_⟩
    cases hrel with
    | visited hobserved hvisit => exact ⟨hobserved, hvisit⟩
  unfold runCycle at h
  dsimp only at h
  by_cases habort : (observePhase incidentId inp {} (store.map (invalidateStale inp))).2 = true
  · rw [if_pos habort] at h
    obtain ⟨w, hw, hobserved, hvisit⟩ := hat h
    exact ⟨w, after, hw, hobserved, hvisit, (if_pos habort).symm⟩
  · rw [if_neg habort] at h
    have hmap : ∃ v, (observePhase incidentId inp {} (store.map (invalidateStale inp))).1[i]? =
        some (v, some observation) ∧ after = supersede inp v := by
      rw [List.getElem?_append] at h
      split_ifs at h
      · rw [List.getElem?_map] at h
        obtain ⟨⟨v, o⟩, hv, heq⟩ := Option.map_eq_some_iff.1 h
        cases heq
        exact ⟨v, hv, rfl⟩
      · simp [untouched] at h
    obtain ⟨v, hv, rfl⟩ := hmap
    obtain ⟨w, hw, hobserved, hvisit⟩ := hat hv
    exact ⟨w, v, hw, hobserved, hvisit, (if_neg habort).symm⟩

theorem supersede_isTerminal {v : Watch} (inp : CycleInput) :
    (supersede inp v).isTerminal = true ↔ v.isTerminal = true ∨ isSuperseded inp v = true := by
  unfold supersede
  split_ifs with h
  · simp [h, Watch.isTerminal, Watch.withStatus, terminalStatuses]
  · simp [h]

theorem isSuperseded_eq {w v : Watch} (hobserved : w.isObserved = true) (hsame : SameWatch w v)
    (hactive : v.isTerminal = false) : isSuperseded inp v = isSuperseded inp w := by
  have hw : w.lane.status ∈ activeStatuses := by
    rcases of_decide_eq_true hobserved with h | h <;> rw [h] <;> decide
  simp [isSuperseded, isTerminal_eq_false_iff.1 hactive, hw, hsame.source, hsame.dedupKey]

end Cycle

/-! ## Runs -/

section Run

variable (incidentId : String → DataStatus → ℤ → String) (cycles : ℕ → CycleInput)
  (initial : List Watch)

/-- A cycle of the run reached the signal at a position, as `w`, and left it as `after`. -/
structure ReachedAt (n i : ℕ) (w after : Watch) (observation : MarketDataObservation) : Prop where
  before : ((storeAt incidentId cycles initial n)[i]?).map (invalidateStale (cycles n)) = some w
  after : (runCycle incidentId (cycles n) (storeAt incidentId cycles initial n))[i]? =
    some (after, some observation)

/-- The consecutive observations of a signal before a cycle whose data could not be used. -/
def unusableAt (i : ℕ) : ℕ → ℕ
  | 0 => 0
  | n + 1 =>
      match ((runCycle incidentId (cycles n) (storeAt incidentId cycles initial n))[i]?).bind
        Prod.snd with
      | none => unusableAt i n
      | some observation => if observation.usable then 0 else unusableAt i n + 1

/-- The cycle ends a signal in favour of a validated setup. -/
def makesRoom (n : ℕ) (w : Watch) : Bool :=
  !aborted incidentId (cycles n) (storeAt incidentId cycles initial n) &&
    isSuperseded (cycles n) w

/-- An armed signal that a cycle reaches past its expiry is terminal behind it, and so is an opened
one whose data could not be used once more than `max_no_data` times in a row. -/
def AgesOut (n i : ℕ) : Prop :=
  ∀ w after observation, ReachedAt incidentId cycles initial n i w after observation →
    (w.lane.status = .armed → w.pastExpiry (cycles n).now = true → after.isTerminal = true) ∧
    (w.lane.status = .openedPaper → observation.usable = false →
      maxNoData ≤ unusableAt incidentId cycles initial i n → after.isTerminal = true)

/-- A signal with an expiry whose data can never be used again is not reached for ever. -/
def NeverBlocked : Prop :=
  StrictMono (fun n => (cycles n).now) → (∀ t, ∃ n, t < (cycles n).now) →
    ∀ blocking : Finset ℕ, blocking.Nonempty → ∀ start, ¬ ∀ n ≥ start, ∀ i ∈ blocking,
      ∃ w after observation, ReachedAt incidentId cycles initial n i w after observation ∧
        w.lane.expiresAt ≠ 0 ∧ observation.usable = false

/-- No signal strands in the run. -/
def NoStranding : Prop :=
  (∀ n i, AgesOut incidentId cycles initial n i) ∧ NeverBlocked incidentId cycles initial

/-- Past its expiry an armed signal meets usable candles that do not leave it open, and an opened
one does not miss its data more than `max_no_data` times in a row. -/
def DataReturns (n i : ℕ) : Prop :=
  ∀ w after observation, ReachedAt incidentId cycles initial n i w after observation →
    (w.lane.status = .armed → w.pastExpiry (cycles n).now = true →
      makesRoom incidentId cycles initial n w = true ∨ observation.usable = true ∧
        (LeavesOpen w observation → maxNoData ≤ w.noDataCount.getD 0)) ∧
    (w.lane.status = .openedPaper → observation.usable = false →
      maxNoData ≤ unusableAt incidentId cycles initial i n →
        makesRoom incidentId cycles initial n w = true)

variable {incidentId cycles initial}

namespace ReachedAt

variable {n i : ℕ} {w after : Watch} {observation : MarketDataObservation}

theorem visited (h : ReachedAt incidentId cycles initial n i w after observation) :
    ∃ v, w.isObserved = true ∧ visit incidentId observation (cycles n).now w = .ok v ∧
      after = if aborted incidentId (cycles n) (storeAt incidentId cycles initial n) then v
        else supersede (cycles n) v := by
  obtain ⟨w', v, hw', hobserved, hvisit, hafter⟩ := runCycle_reached h.after
  have hbefore := h.before
  rw [hw', Option.map_some] at hbefore
  rw [Option.some.inj hbefore] at hobserved hvisit
  exact ⟨v, hobserved, hvisit, hafter⟩

theorem isTerminal_iff (h : ReachedAt incidentId cycles initial n i w after observation) :
    ∃ v, visit incidentId observation (cycles n).now w = .ok v ∧
      (after.isTerminal = true ↔
        v.isTerminal = true ∨ makesRoom incidentId cycles initial n w = true) := by
  obtain ⟨v, hobserved, hvisit, rfl⟩ := h.visited
  refine ⟨v, hvisit, ?_⟩
  cases habort : aborted incidentId (cycles n) (storeAt incidentId cycles initial n) with
  | true => simp [makesRoom, habort]
  | false =>
    rw [if_neg Bool.false_ne_true, supersede_isTerminal, makesRoom, habort, Bool.not_false,
      Bool.true_and]
    cases hactive : v.isTerminal with
    | true => simp
    | false => rw [isSuperseded_eq hobserved (visit_sameWatch hvisit) hactive]

end ReachedAt

theorem agesOut_iff {n i : ℕ} :
    AgesOut incidentId cycles initial n i ↔ DataReturns incidentId cycles initial n i := by
  refine forall₄_congr fun w after observation h => ?_
  obtain ⟨v, hvisit, hterminal⟩ := h.isTerminal_iff
  rw [hterminal]
  refine and_congr (forall₂_congr fun harmed hpast => ?_)
    (forall₃_congr fun hopened hdata _ => ?_)
  · rw [visit_pastExpiry harmed hpast hvisit, or_comm]
  · rw [Watch.isTerminal, visit_unusable hdata hvisit, hopened]
    simp [terminalStatuses]

/-! ### A signal whose data never returns -/

section Blocked

variable {i start : ℕ} (hdata : ∀ n ≥ start, ∃ w after observation,
  ReachedAt incidentId cycles initial n i w after observation ∧
    w.lane.expiresAt ≠ 0 ∧ observation.usable = false)

theorem ReachedAt.next {n : ℕ} {w after w' after' : Watch}
    {observation observation' : MarketDataObservation}
    (h : ReachedAt incidentId cycles initial n i w after observation)
    (h' : ReachedAt incidentId cycles initial (n + 1) i w' after' observation')
    (hunusable : observation.usable = false) :
    w'.lane = w.lane ∧ after.isTerminal = false ∧
      unusableAt incidentId cycles initial i (n + 1) =
        unusableAt incidentId cycles initial i n + 1 := by
  obtain ⟨v, hobserved, hvisit, hafter⟩ := h.visited
  obtain ⟨_, hobserved', _, _⟩ := h'.visited
  have hbefore := h'.before
  rw [storeAt, List.getElem?_map, h.after] at hbefore
  simp only [Option.map_some, Option.some.injEq] at hbefore
  have hstale : invalidateStale (cycles (n + 1)) after = after := by
    unfold invalidateStale at hbefore ⊢
    split_ifs at hbefore ⊢
    · rw [← hbefore] at hobserved'
      exact absurd hobserved' (by simp [Watch.isObserved, Watch.withStatus])
    · rfl
  rw [hstale] at hbefore
  have hactive : after.isTerminal = false := by
    rw [isTerminal_eq_false_iff, hbefore]
    rcases of_decide_eq_true hobserved' with hs | hs <;> rw [hs] <;> decide
  refine ⟨?_, hactive, ?_⟩
  · rw [← hbefore, ← visit_unusable hunusable hvisit, hafter]
    split_ifs with habort
    · rfl
    · unfold supersede
      split_ifs with hroom
      · rw [hafter, if_neg habort, supersede, if_pos hroom] at hactive
        exact absurd hactive (by simp [Watch.isTerminal, Watch.withStatus, terminalStatuses])
      · rfl
  · rw [unusableAt, h.after]
    simp [hunusable]

include hdata

theorem blocked_keeps (m : ℕ) :
    m ≤ unusableAt incidentId cycles initial i (start + m) ∧
      ∀ w w' after after' observation observation',
        ReachedAt incidentId cycles initial start i w after observation →
        ReachedAt incidentId cycles initial (start + m) i w' after' observation' →
          w'.lane = w.lane := by
  induction m with
  | zero =>
    refine ⟨Nat.zero_le _, fun w w' _ _ _ _ h h' => ?_⟩
    rw [Option.some.inj (h'.before.symm.trans h.before)]
  | succ m ih =>
    obtain ⟨x, xafter, xobs, hx, -, hunusable⟩ := hdata (start + m) (Nat.le_add_right _ _)
    obtain ⟨y, yafter, yobs, hy, -, -⟩ := hdata (start + m + 1) (by omega)
    have hnext := hx.next hy hunusable
    refine ⟨?_, fun w w' after after' observation observation' h h' => ?_⟩
    · have := hnext.2.2
      have := ih.1
      change m + 1 ≤ unusableAt incidentId cycles initial i (start + m + 1)
      omega
    · exact (hx.next h' hunusable).1.trans (ih.2 w x _ _ _ _ h hx)

/-- Where the data returns as it must, no signal is reached for ever without it. -/
theorem not_blocked (hmet : ∀ n, DataReturns incidentId cycles initial n i)
    (hnow : ∀ t, ∃ n ≥ start, t < (cycles n).now) : False := by
  obtain ⟨w, after, observation, h, hexpiry, -⟩ := hdata start le_rfl
  have hroom : ∀ n ≥ start, ∀ w' after' observation',
      ReachedAt incidentId cycles initial n i w' after' observation' →
        makesRoom incidentId cycles initial n w' = false := by
    intro n hn w' after' observation' h'
    obtain ⟨x, xafter, xobs, hx, -, hunusable⟩ := hdata n hn
    obtain ⟨y, yafter, yobs, hy, -, -⟩ := hdata (n + 1) (by omega)
    obtain ⟨_, _, hterminal⟩ := hx.isTerminal_iff
    rw [Option.some.inj (h'.before.symm.trans hx.before)]
    by_contra hne
    have := hterminal.2 (.inr (by simpa using hne))
    rw [(hx.next hy hunusable).2.1] at this
    exact absurd this (by decide)
  obtain ⟨_, hobserved, _, _⟩ := h.visited
  rcases of_decide_eq_true hobserved with harmed | hopened
  · obtain ⟨n, hn, hlate⟩ := hnow w.lane.expiresAt
    obtain ⟨m, rfl⟩ := Nat.exists_eq_add_of_le hn
    obtain ⟨w', after', observation', h', -, hunusable⟩ := hdata _ hn
    have hlane := (blocked_keeps hdata m).2 _ _ _ _ _ _ h h'
    have hpast : w'.pastExpiry (cycles (start + m)).now = true := by
      rw [Watch.pastExpiry, hlane]
      exact decide_eq_true ⟨hexpiry, hlate⟩
    rcases (hmet _ _ _ _ h').1 (hlane ▸ harmed) hpast with hmade | husable
    · rw [hroom _ hn _ _ _ h'] at hmade
      exact absurd hmade (by decide)
    · rw [hunusable] at husable
      exact absurd husable.1 (by decide)
  · obtain ⟨w', after', observation', h', -, hunusable⟩ := hdata (start + 4) (by omega)
    obtain ⟨hcount, hlane⟩ := blocked_keeps hdata 4
    have hmade := (hmet _ _ _ _ h').2 (hlane _ _ _ _ _ _ h h' ▸ hopened) hunusable
      (by rw [maxNoData]; exact_mod_cast hcount)
    rw [hroom _ (by omega) _ _ _ h'] at hmade
    exact absurd hmade (by decide)

end Blocked

/-- No signal strands in a run if and only if its data returns in time at every position. -/
theorem noStranding_iff : NoStranding incidentId cycles initial ↔
    ∀ n i, DataReturns incidentId cycles initial n i := by
  simp only [NoStranding, agesOut_iff, and_iff_left_iff_imp]
  intro hmet hmono hlate blocking hnonempty start hblocked
  obtain ⟨i, hi⟩ := hnonempty
  have hdata := fun n hn => hblocked n hn i hi
  refine not_blocked hdata (fun n => hmet n i) fun t => ?_
  obtain ⟨n, hn⟩ := hlate t
  refine ⟨max start n, le_max_left _ _, hn.trans_le ?_⟩
  exact hmono.monotone (le_max_right _ _)

end Run

/-! ## An armed signal whose provider fails -/

/-- An armed signal that expires at time 100. -/
def expiringWatch : Watch where
  signalId := "a"
  dedupKey := "BTC_USDT_SWAP|15m|reclaim"
  lane := {
    source := .farm
    symbol := "BTC_USDT_SWAP"
    okxInstId := "BTC-USDT-SWAP"
    timeframe := "15m"
    side := .long
    setupFamily := "reclaim"
    entryZone := (100, 101)
    stopLoss := 99
    invalidationRule := "close below the stop"
    takeProfitPlan := [⟨"tp1", 104, 1⟩]
    maxHoldBars := 8
    reasonNow := "level reclaimed"
    status := .armed
    createdAt := 10
    expiresAt := 100 }

/-- Cycles at the times 200, 201, ... in which the provider never answers. -/
def silentCycles (n : ℕ) : CycleInput where
  now := 200 + n
  provider := fun _ _ _ _ _ => .error "TimeoutError"
  stop := fun _ => false
  maxObserve := some 1
  maxNetworkFetches := none
  stalePfrIds := []
  pfrNewKeys := []
  newSignals := []

theorem expired_signal_stays_armed :
    ¬ NoStranding (fun signalId _ _ => signalId) silentCycles [expiringWatch] := by
  intro h
  have hreached : ReachedAt (fun signalId _ _ => signalId) silentCycles [expiringWatch] 0 0
      expiringWatch (recordDataUnavailable (fun signalId _ _ => signalId)
        ⟨[], .providerError, "provider:TimeoutError"⟩ (200 + (0 : ℕ)) expiringWatch)
      ⟨[], .providerError, "provider:TimeoutError"⟩ := ⟨rfl, rfl⟩
  exact absurd ((h.1 0 0 _ _ _ hreached).1 rfl (by decide +kernel)) (by decide +kernel)

end ResearchLab.PaperLane

