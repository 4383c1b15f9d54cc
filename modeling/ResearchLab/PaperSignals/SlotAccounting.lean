import Mathlib
import ResearchLab.PaperSignals.Slots

/-!
# Slot accounting

How many signals a cycle generates. The loops over the movers compare the whole list of new
signals with the room that the validated setups left, so that each validated setup takes two
slots from them.
-/
namespace ResearchLab.PaperSignals
open Foundation Json

variable {C : Type} (w : World C) (args : CycleArgs) (h : History)

/-! ## Validated setups stay under their cap -/

section Pfr

variable {maxPfr : ℕ} {recent : List (String × String)} {st : PfrState C}

theorem length_pfrCandidate {row : Dict} {dedupKey setupId : String}
    {build : Dict → List C → Option PaperActionSignal × String} {candles : List C} :
    (pfrCandidate w recent row dedupKey setupId build candles st).generated.length ≤
      st.generated.length + 1 := by
  unfold pfrCandidate
  split_ifs
  · exact Nat.le_succ _
  · exact Nat.le_succ _
  split
  · exact Nat.le_succ _
  split_ifs
  · exact Nat.le_succ _
  · simp [PfrState.select, PfrState.count]

theorem length_pfrRecord {row : Dict} (hst : st.generated.length ≤ maxPfr) :
    (pfrRecord w args maxPfr recent row st).1.generated.length ≤ maxPfr := by
  unfold pfrRecord
  by_cases hcap : maxPfr ≤ st.generated.length
  · rw [if_pos hcap]
    exact hst
  rw [if_neg hcap]
  cases w.pfrBuilders (w.text row "family") with
  | none => exact hst
  | some build =>
    dsimp only
    split_ifs
    · exact hst
    · exact hst
    · exact hst
    · exact hst
    · split
      · exact hst
      · exact hst
      · exact (length_pfrCandidate w).trans (by simpa using hcap)
    · exact hst

theorem length_pfrRecords {rows : List Dict} (hst : st.generated.length ≤ maxPfr) :
    (pfrRecords w args maxPfr recent rows st).generated.length ≤ maxPfr := by
  induction rows generalizing st with
  | nil => exact hst
  | cons row rows ih =>
    rw [pfrRecords]
    by_cases hstop : w.stop st.polls = true
    · rw [if_pos hstop]
      exact hst
    rw [if_neg hstop]
    by_cases hscan : args.maxPfrScan ≤ st.scanned
    · rw [if_pos hscan]
      exact ih hst
    rw [if_neg hscan]
    set st' : PfrState C := { st with polls := st.polls + 1, scanned := st.scanned + 1 }
    have hstep : (pfrRecord w args maxPfr recent row st').1.generated.length ≤ maxPfr :=
      length_pfrRecord w args hst
    dsimp only
    split_ifs
    · exact hstep
    · exact ih hstep

theorem length_pfrPretrigger {candidate : PaperActionSignal × List C × String}
    (hst : st.generated.length ≤ maxPfr) :
    (pfrPretrigger maxPfr st candidate).generated.length ≤ maxPfr := by
  unfold pfrPretrigger
  dsimp only
  split_ifs with hcap
  · exact hst
  · exact hst
  · exact hst
  · simpa [PfrState.select, PfrState.count] using hcap

theorem length_generatePfrSignals {records : List Dict} (hst : st.generated.length ≤ maxPfr) :
    (generatePfrSignals w args maxPfr recent records st).generated.length ≤ maxPfr := by
  unfold generatePfrSignals
  refine List.foldlRecOn (motive := fun st' : PfrState C => st'.generated.length ≤ maxPfr) _ _
    (length_pfrRecords w args hst) fun st' hst' candidate _ => ?_
  exact length_pfrPretrigger hst'

end Pfr

theorem pfrCap_le (args : CycleArgs) : pfrCap args ≤ newLimit args := by
  unfold pfrCap pfrReserved
  split_ifs <;> omega

theorem length_pfrPhase (o : Observed) (records : List Dict) :
    (pfrPhase w args h o records).generated.length ≤ pfrCap args := by
  unfold pfrPhase
  dsimp only
  split_ifs
  · exact Nat.zero_le _
  · exact length_generatePfrSignals w args (Nat.zero_le _)
  · exact Nat.zero_le _

/-! ## The loops only add, and no more than there is room -/

/-- Signals and counts are added at the end, and no signal from the bound on. -/
structure Advances (limits : Limits) (s r : LiveState C) : Prop where
  newSigs : s.newSigs <+: r.newSigs
  counts : s.counts <+: r.counts
  bounded : ∀ cap, limits.newSigs = some cap → r.newSigs.length ≤ max cap s.newSigs.length

namespace Advances

variable {limits : Limits} {s r t : LiveState C}

theorem of_eq (hnew : r.newSigs = s.newSigs) (hcounts : s.counts <+: r.counts) :
    Advances limits s r :=
  ⟨hnew ▸ List.prefix_rfl, hcounts, fun _ _ => hnew ▸ le_max_right _ _⟩

theorem refl (s : LiveState C) : Advances limits s s := of_eq rfl List.prefix_rfl

theorem count (s : LiveState C) (key : String) : Advances limits s (s.count key) :=
  of_eq rfl (List.prefix_append _ _)

theorem trans (hsr : Advances limits s r) (hrt : Advances limits r t) : Advances limits s t where
  newSigs := hsr.newSigs.trans hrt.newSigs
  counts := hsr.counts.trans hrt.counts
  bounded cap hcap := by
    have h₁ := hsr.bounded cap hcap
    have h₂ := hrt.bounded cap hcap
    omega

end Advances

theorem full_iff {limits : Limits} {s : LiveState C} :
    limits.full s = true ↔ ∃ cap, limits.newSigs = some cap ∧ cap ≤ s.newSigs.length := by
  rw [Limits.full]
  cases limits.newSigs <;> simp

section Levels

variable (limits : Limits)

theorem liveSignal_advances {symbol tf : String} {candles : List C} {s : LiveState C}
    {candidate : PaperActionSignal × String} (hfull : limits.full s = false) :
    Advances limits s (liveSignal w args h symbol tf candles s candidate) := by
  unfold liveSignal
  dsimp only
  split
  · exact .count _ _
  refine ⟨List.prefix_append _ _, ?_, fun cap hcap => ?_⟩
  · simp only [LiveState.count, List.append_assoc]
    exact List.prefix_append _ _
  · have hroom : ¬ cap ≤ s.newSigs.length := fun hle =>
      Bool.false_ne_true (hfull.symm.trans (full_iff.2 ⟨cap, hcap, hle⟩))
    simp only [List.length_append, List.length_singleton]
    omega

theorem liveSignals_advances {symbol tf : String} {candles : List C}
    (candidates : List (PaperActionSignal × String)) (s : LiveState C) :
    Advances limits s (liveSignals w args h limits symbol tf candles candidates s) := by
  induction candidates generalizing s with
  | nil => exact .refl s
  | cons candidate rest ih =>
    rw [liveSignals]
    split_ifs with hfull
    · exact .refl s
    · exact (liveSignal_advances w args h limits (by simpa using hfull)).trans (ih _)

theorem liveFrame_advances (mover : Dict) (symbol tf : String) (observation : Observation C)
    (s : LiveState C) :
    Advances limits s (liveFrame w args h limits mover symbol tf observation s) := by
  unfold liveFrame
  dsimp only
  split_ifs
  · exact .count _ _
  · split
    · exact (Advances.count _ _).trans (.count _ _)
    · exact (Advances.count _ _).trans (liveSignals_advances w args h limits _ _)
  · exact .count _ _

theorem liveFrames_advances (mover : Dict) (symbol : String) (tfs : List String)
    (s : LiveState C) :
    Advances limits s (liveFrames w args h limits mover symbol tfs s).1 := by
  induction tfs generalizing s with
  | nil => exact .refl s
  | cons tf tfs ih =>
    rw [liveFrames]
    split_ifs
    · exact .of_eq rfl (List.prefix_append _ _)
    · exact .of_eq rfl List.prefix_rfl
    · exact .of_eq rfl (List.prefix_append _ _)
    · exact .of_eq rfl (List.prefix_append _ _)
    · refine .trans ?_ (ih _)
      exact .trans (r := s.fetched) (.of_eq rfl List.prefix_rfl)
        (liveFrame_advances w args h limits _ _ _ _ _)

theorem liveMovers_advances (movers : List Dict) (limitReached : Bool) (s : LiveState C) :
    Advances limits s (liveMovers w args h limits movers limitReached s) := by
  induction movers generalizing limitReached s with
  | nil => exact .refl s
  | cons mover movers ih =>
    rw [liveMovers]
    split_ifs
    · exact .of_eq rfl (List.prefix_append _ _)
    · exact .of_eq rfl List.prefix_rfl
    · refine .trans ?_ (ih _ _)
      exact .trans (r := s.poll) (.of_eq rfl List.prefix_rfl)
        (liveFrames_advances w args h limits _ _ _ _)

end Levels

/-! ## Against the loops without limits -/

def limitKeys : List String := [
  "wall_or_stop_limit_reached", "live_fetch_limit_reached", "network_fetch_limit_reached",
  "observe_network_fetch_limit_reached", "pfr_time_or_stop_limit_reached",
  "pfr_fetch_limit_reached"]

/-- A limit of time, stop, network or fetches was counted. -/
def HitsLimit (counts : List String) : Prop := ∃ key ∈ limitKeys, key ∈ counts

instance decidableHitsLimit (counts : List String) : Decidable (HitsLimit counts) :=
  inferInstanceAs (Decidable (∃ key ∈ limitKeys, key ∈ counts))

/-- No bound on the signals and no limit that ends a loop early. -/
def limitless : Limits := ⟨none, none, none, fun _ => false⟩

theorem limitless_full (s : LiveState C) : limitless.full s = false := rfl

theorem HitsLimit.mono {counts counts' : List String} (h : counts <+: counts')
    (hits : HitsLimit counts) : HitsLimit counts' := by
  obtain ⟨key, hkey, hmem⟩ := hits
  exact ⟨key, hkey, h.subset hmem⟩

theorem hitsLimit_count {s : LiveState C} {key : String} (h : key ∈ limitKeys) :
    HitsLimit (s.count key).counts := ⟨key, h, by simp [LiveState.count]⟩

/-- The bounded loop from `s` ended in `r`, the unbounded one in `u`: the same signals first, and
the same state as long as there is room. -/
structure Tracks (cap : ℕ) (r u : LiveState C) : Prop where
  newSigs : r.newSigs <+: u.newSigs
  room : r.newSigs.length < cap → r = u

namespace Tracks

variable {cap : ℕ} {r u r' u' : LiveState C}

theorem refl (s : LiveState C) : Tracks cap s s := ⟨List.prefix_rfl, fun _ => rfl⟩

/-- From the bound on the bounded loop adds nothing. -/
theorem of_full (hcap : cap ≤ r.newSigs.length) (hr : r'.newSigs = r.newSigs)
    (hu : r.newSigs <+: u.newSigs) : Tracks cap r' u :=
  ⟨hr ▸ hu, fun hlt => absurd (hr ▸ hcap) (Nat.not_le.2 hlt)⟩

/-- The rest of the loops, after a part that is tracked. -/
theorem trans {limits : Limits} (h : Tracks cap r u) (hu : Advances limits u u')
    (hfull : cap ≤ r.newSigs.length → r'.newSigs = r.newSigs)
    (hnext : r = u → Tracks cap r' u') : Tracks cap r' u' := by
  by_cases hcap : cap ≤ r.newSigs.length
  · exact of_full hcap (hfull hcap) (h.newSigs.trans hu.newSigs)
  · exact hnext (h.room (Nat.not_le.1 hcap))

end Tracks

theorem liveFrames_limitless_flag (mover : Dict) (symbol : String) (tfs : List String)
    (s : LiveState C) : (liveFrames w args h limitless mover symbol tfs s).2 = false := by
  induction tfs generalizing s with
  | nil => rfl
  | cons tf tfs ih =>
    rw [liveFrames, if_neg (by simp [limitless]), if_neg (by simp [limitless_full]),
      if_neg (by simp [limitless]), if_neg (by simp [limitless])]
    exact ih _

section Tracking

variable {limits : Limits} {cap : ℕ} (hcap : limits.newSigs = some cap)

include hcap

theorem full_of_le {s : LiveState C} (h : cap ≤ s.newSigs.length) : limits.full s = true :=
  full_iff.2 ⟨cap, hcap, h⟩

theorem le_of_full {s : LiveState C} (h : limits.full s = true) : cap ≤ s.newSigs.length := by
  obtain ⟨cap', hcap', hle⟩ := full_iff.1 h
  rw [hcap] at hcap'
  exact Option.some.inj hcap' ▸ hle

theorem liveSignals_tracks {symbol tf : String} {candles : List C}
    (candidates : List (PaperActionSignal × String)) (s : LiveState C) :
    Tracks cap (liveSignals w args h limits symbol tf candles candidates s)
      (liveSignals w args h limitless symbol tf candles candidates s) := by
  induction candidates generalizing s with
  | nil => exact .refl s
  | cons candidate rest ih =>
    by_cases hfull : limits.full s = true
    · refine .of_full (le_of_full hcap hfull) ?_
        (liveSignals_advances w args h limitless _ _).newSigs
      rw [liveSignals, if_pos hfull]
    · rw [liveSignals, if_neg hfull, liveSignals, if_neg (by simp [limitless_full])]
      exact ih _

theorem liveFrame_tracks (mover : Dict) (symbol tf : String) (observation : Observation C)
    (s : LiveState C) :
    Tracks cap (liveFrame w args h limits mover symbol tf observation s)
      (liveFrame w args h limitless mover symbol tf observation s) := by
  unfold liveFrame
  dsimp only
  split_ifs
  · exact .refl _
  · split
    · exact .refl _
    · exact liveSignals_tracks w args h hcap _ _
  · exact .refl _

theorem liveFrames_full (mover : Dict) (symbol : String) (tfs : List String) {s : LiveState C}
    (hle : cap ≤ s.newSigs.length) :
    (liveFrames w args h limits mover symbol tfs s).1.newSigs = s.newSigs := by
  cases tfs with
  | nil => rfl
  | cons tf tfs =>
    rw [liveFrames, if_pos (full_of_le hcap hle)]
    split_ifs <;> rfl

theorem liveMovers_full (movers : List Dict) (limitReached : Bool) {s : LiveState C}
    (hle : cap ≤ s.newSigs.length) :
    (liveMovers w args h limits movers limitReached s).newSigs = s.newSigs := by
  cases movers with
  | nil => rfl
  | cons mover movers =>
    rw [liveMovers, full_of_le hcap hle, Bool.true_or, if_pos rfl]
    split_ifs <;> rfl

/-- A timeframe loop that counted no limit raised no flag, and is tracked. -/
theorem liveFrames_tracks (mover : Dict) (symbol : String) (tfs : List String) (s : LiveState C)
    (hits : ¬ HitsLimit (liveFrames w args h limits mover symbol tfs s).1.counts) :
    (liveFrames w args h limits mover symbol tfs s).2 = false ∧
      Tracks cap (liveFrames w args h limits mover symbol tfs s).1
        (liveFrames w args h limitless mover symbol tfs s).1 := by
  induction tfs generalizing s with
  | nil => exact ⟨rfl, .refl s⟩
  | cons tf tfs ih =>
    by_cases hstop : limits.stop s.polls = true
    · rw [liveFrames, if_pos hstop] at hits
      exact absurd (hitsLimit_count (by decide)) hits
    by_cases hfull : limits.full s = true
    · rw [liveFrames, if_neg hstop, if_pos hfull]
      exact ⟨rfl, .of_full (le_of_full hcap hfull) rfl
        (liveFrames_advances w args h limitless _ _ _ _).newSigs⟩
    rw [liveFrames, if_neg hstop, if_neg hfull] at hits ⊢
    split_ifs at hits ⊢
    · exact absurd (hitsLimit_count (by decide)) hits
    · exact absurd (hitsLimit_count (by decide)) hits
    · obtain ⟨hflag, htracks⟩ := ih _ hits
      refine ⟨hflag, ?_⟩
      rw [liveFrames, if_neg (by simp [limitless]), if_neg (by simp [limitless_full]),
        if_neg (by simp [limitless]), if_neg (by simp [limitless])]
      refine (liveFrame_tracks w args h hcap mover symbol tf _ _).trans
        (liveFrames_advances w args h limitless _ _ _ _)
        (fun hle => liveFrames_full w args h hcap _ _ _ hle) fun heq => ?_
      rw [← heq]
      exact htracks

theorem liveMovers_tracks (movers : List Dict) (s : LiveState C)
    (hits : ¬ HitsLimit (liveMovers w args h limits movers false s).counts) :
    Tracks cap (liveMovers w args h limits movers false s)
      (liveMovers w args h limitless movers false s) := by
  induction movers generalizing s with
  | nil => exact .refl s
  | cons mover movers ih =>
    by_cases hstop : limits.stop s.polls = true
    · rw [liveMovers, if_pos hstop] at hits
      exact absurd (hitsLimit_count (by decide)) hits
    by_cases hfull : limits.full s = true
    · rw [liveMovers, if_neg hstop, hfull, Bool.true_or, if_pos rfl]
      exact .of_full (le_of_full hcap hfull) rfl
        (liveMovers_advances w args h limitless _ _ _).newSigs
    rw [liveMovers, if_neg hstop, Bool.not_eq_true _ |>.mp hfull, Bool.or_false,
      if_neg Bool.false_ne_true] at hits ⊢
    have hframes : ¬ HitsLimit (liveFrames w args h limits mover (moverSymbol w mover)
        args.timeframes s.poll).1.counts := fun hit =>
      hits (hit.mono (liveMovers_advances w args h limits _ _ _).counts)
    obtain ⟨hflag, htracks⟩ := liveFrames_tracks w args h hcap _ _ _ _ hframes
    rw [liveMovers, if_neg (by simp [limitless]), limitless_full, Bool.or_false,
      if_neg Bool.false_ne_true]
    dsimp only at hits ⊢
    rw [hflag] at hits ⊢
    rw [liveFrames_limitless_flag]
    refine htracks.trans (liveMovers_advances w args h limitless _ _ _)
      (fun hle => liveMovers_full w args h hcap _ _ hle) fun heq => ?_
    rw [← heq]
    exact ih _ hits

end Tracking

/-! ## The count of a cycle -/

section Count

variable (o : Observed) (records movers : List Dict)

/-- The live signals that pass every gate and every deduplication after the validated setups. -/
def passingLive : ℕ :=
  let pfr := pfrPhase w args h o records
  (liveMovers w args h limitless movers false (liveStart h o pfr)).newSigs.length -
    pfr.generated.length

/-- A cycle generates at most `max_new` signals, at most as many validated setups as their cap,
and, when no limit is hit, as many as its slots and its candidates allow. -/
def SlotsExact : Prop :=
  let generated := (newSignals w args h o records movers).newSigs.length
  let pfr := (pfrPhase w args h o records).generated.length
  generated ≤ newLimit args ∧ pfr ≤ pfrCap args ∧
    (¬ HitsLimit (newSignals w args h o records movers).counts →
      generated = min (newLimit args) (pfr + passingLive w args h o records movers))

theorem newSignals_bounds :
    (pfrPhase w args h o records).generated.length ≤
        (newSignals w args h o records movers).newSigs.length ∧
      (newSignals w args h o records movers).newSigs.length ≤ newLimit args := by
  have hadvances := liveMovers_advances w args h
    (cycleLimits w args (pfrPhase w args h o records)) movers false
    (liveStart h o (pfrPhase w args h o records))
  have hbound := hadvances.bounded _ rfl
  have hgrows := hadvances.newSigs.length_le
  have hpfr := (length_pfrPhase w args h o records).trans (pfrCap_le args)
  change (newSignals w args h o records movers).newSigs.length ≤
    max _ (pfrPhase w args h o records).generated.length at hbound
  change (pfrPhase w args h o records).generated.length ≤
    (newSignals w args h o records movers).newSigs.length at hgrows
  omega

/-- Without a limit, each validated setup takes its own slot and the room of one live signal. -/
theorem newSignals_length
    (hits : ¬ HitsLimit (newSignals w args h o records movers).counts) :
    let pfr := (pfrPhase w args h o records).generated.length
    (newSignals w args h o records movers).newSigs.length =
      max pfr (min (pfr + passingLive w args h o records movers) (newLimit args - pfr)) := by
  intro pfr
  have htracks := @liveMovers_tracks _ w args h (cycleLimits w args (pfrPhase w args h o records)) _
    rfl movers (liveStart h o (pfrPhase w args h o records)) hits
  have hadvances := liveMovers_advances w args h
    (cycleLimits w args (pfrPhase w args h o records)) movers false
    (liveStart h o (pfrPhase w args h o records))
  have hlimitless := (liveMovers_advances w args h limitless movers false
    (liveStart h o (pfrPhase w args h o records))).newSigs.length_le
  have hbound := hadvances.bounded _ rfl
  have hgrows := hadvances.newSigs.length_le
  have hbegins := htracks.newSigs.length_le
  have hroom : (newSignals w args h o records movers).newSigs.length <
      newLimit args - (pfrPhase w args h o records).generated.length →
        (newSignals w args h o records movers).newSigs.length =
          (liveMovers w args h limitless movers false
            (liveStart h o (pfrPhase w args h o records))).newSigs.length :=
    fun hlt => congrArg (fun s : LiveState C => s.newSigs.length) (htracks.room hlt)
  change (newSignals w args h o records movers).newSigs.length ≤ max _ pfr at hbound
  change pfr ≤ (newSignals w args h o records movers).newSigs.length at hgrows
  change pfr ≤ _ at hlimitless
  change (newSignals w args h o records movers).newSigs.length ≤ _ at hbegins
  have hpassing : passingLive w args h o records movers = (liveMovers w args h limitless movers
    false (liveStart h o (pfrPhase w args h o records))).newSigs.length - pfr := rfl
  omega

/-- The slots of a cycle are used exactly if and only if a limit was hit, no validated setup or
no live signal came up, the validated setups filled the cycle, or there was room for each of them
twice. -/
theorem slotsExact_iff :
    SlotsExact w args h o records movers ↔
      (¬ HitsLimit (newSignals w args h o records movers).counts →
        (pfrPhase w args h o records).generated.length = 0 ∨
        passingLive w args h o records movers = 0 ∨
        (pfrPhase w args h o records).generated.length = newLimit args ∨
        passingLive w args h o records movers +
          2 * (pfrPhase w args h o records).generated.length ≤ newLimit args) := by
  let pfr := (pfrPhase w args h o records).generated.length
  let live := passingLive w args h o records movers
  obtain ⟨hgrows, hbound⟩ := newSignals_bounds w args h o records movers
  have hcap := length_pfrPhase w args h o records
  have hpfr : pfr ≤ newLimit args := hcap.trans (pfrCap_le args)
  unfold SlotsExact
  simp only [hbound, hcap, true_and]
  refine forall_congr' fun hits => ?_
  have hlength := newSignals_length w args h o records movers hits
  dsimp only at hlength
  change _ = min (newLimit args) (pfr + live) ↔ _
  rw [hlength]
  change max pfr (min (pfr + live) (newLimit args - pfr)) = _ ↔
    pfr = 0 ∨ live = 0 ∨ pfr = newLimit args ∨ live + 2 * pfr ≤ newLimit args
  omega

end Count

/-! ## One validated setup and two live signals for three slots -/

def keyedSignal (source setupFamily : String) : PaperActionSignal where
  signalId := source ++ "-" ++ setupFamily
  source := source
  symbol := "BTC_USDT_SWAP"
  okxInstId := "BTC-USDT-SWAP"
  timeframe := "15m"
  side := "long"
  setupFamily := setupFamily
  entryZone := [100, 101]
  stopLoss := 99
  invalidationRule := "close below the stop"
  takeProfitPlan := [[("price", .float 104)]]
  maxHoldBars := 8
  maxHoldMinutes := 120
  reasonNow := "level reclaimed"
  dedupKey := "BTC_USDT_SWAP|15m|" ++ setupFamily

/-- Every request is answered, every gate passes, and each mover gives two candidates. -/
def openWorld : World ℕ where
  repr := fun _ => ""
  stop := fun _ => false
  fetch := fun _ _ _ => ⟨List.range 60, "usable"⟩
  pfrFetch := fun _ _ _ => .rows (List.range 60)
  fingerprint := fun _ => "window"
  pfrBuilders := fun _ => some fun _ _ => (some (keyedSignal "pfr_farm" "momentum_breakout"), "ok")
  gateCandidate := fun _ _ _ => "ok"
  watchOnlyReason := fun _ => none
  generate := fun _ _ _ _ =>
    [(keyedSignal "farm" "reclaim", "reclaim"), (keyedSignal "farm" "sweep", "sweep")]
  replayed := fun sig _ => sig

def threeSlots : CycleArgs where
  mode := "live"
  timeframes := ["15m"]
  maxNew := 3
  now := 100000
  pfrDb := true
  pfrReservedNew := 0
  maxPfrScan := 30
  maxPfrFetches := some 12
  maxLiveFetches := some 12
  maxNetworkFetches := none

def breakoutRecord : Dict :=
  [("symbol", .str "BTC_USDT_SWAP"), ("timeframe", .str "15m"),
    ("family", .str "momentum_breakout"), ("setup_id", .str "setup-1")]

def btcMover : Dict := [("inst_id", .str "BTC-USDT-SWAP")]

/-- The second live signal finds no slot, although only two of the three are taken. -/
theorem pfr_signal_takes_two_slots :
    ¬ SlotsExact openWorld threeSlots ⟨[], [], []⟩ ⟨[], [], 0, 0, [], []⟩ [breakoutRecord]
      [btcMover] := by
  intro hexact
  have hits : ¬ HitsLimit (newSignals openWorld threeSlots ⟨[], [], []⟩ ⟨[], [], 0, 0, [], []⟩
      [breakoutRecord] [btcMover]).counts := by decide +kernel
  exact absurd (hexact.2.2 hits) (by decide +kernel)

end ResearchLab.PaperSignals
