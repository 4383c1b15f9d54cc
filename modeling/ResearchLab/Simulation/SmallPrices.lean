import Mathlib
import ResearchLab.Simulation.Acceptance

/-!
# Small prices are refused

The bounds that make the validator accept every trade of a window are no artefact: at every
smaller entry, up to a small factor, there are windows next to it whose trades it refuses.
-/
namespace ResearchLab.Simulation
open Foundation

variable {entry : ℚ}

/-! ## Trades with one exit -/

/-- One bar at the entry, and one that closes at another price. -/
def twoBars (entry close : ℚ) : List Candle :=
  [⟨0, entry, entry, entry, entry⟩, ⟨1, entry, close, entry, close⟩]

/-- One bar to hold, and no level. -/
def plainParams : Params := { holdBars := some 1 }

theorem wellFormed_twoBars {close : ℚ} (hentry : 0 < entry) (hclose : entry ≤ close) :
    ∀ bar ∈ twoBars entry close, WellFormed bar := by
  simp only [twoBars, List.forall_mem_cons, List.not_mem_nil, false_imp_iff, implies_true, and_true]
  exact ⟨⟨hentry, le_rfl, le_rfl, le_rfl, le_rfl⟩, hentry, le_rfl, hclose, hclose, le_rfl⟩

/-- The trade leaves at the close of the second bar. -/
theorem decidedExit_twoBars (entry close : ℚ) :
    decidedExit (twoBars entry close) plainParams ⟨0, "long", none, none⟩ 1 entry =
      ⟨close, .timeExit, 1⟩ := by
  have htwo : partialTakes plainParams = none := by decide +kernel
  have hplain : ¬ IsDynamic plainParams := by decide +kernel
  have hlevel : ∀ up, level entry 0 up = none := fun up => by simp [level]
  simp only [decidedExit, htwo, if_neg hplain, baselineExit]
  simp [plainParams, hlevel, barsBetween, twoBars, Scanner.run, baselineScanner, truthy, exitOf, barAt]

theorem holdingWindow_twoBars (hentry : 0 < entry) (close : ℚ) :
    holdingWindow (twoBars entry close) 0 (holdBarsOf plainParams) = some (1, entry) := by
  have hhold : holdBarsOf plainParams = 1 := by decide +kernel
  rw [hhold]
  simp [holdingWindow, twoBars, barAt, hentry]

/-- A quotient that the rounding moves so far is not the declared one. -/
theorem not_pricesReconcile {close : ℚ} {costs : Costs}
    (h : 106 / 10 ^ 7 < |roundTo 10 close / roundTo 10 entry - close / entry|) :
    ¬ PricesReconcile "long" entry close costs := by
  rintro ⟨-, -, hle⟩
  have hround := abs_le.1 (abs_roundTo_sub_le 4 (returnPct "long" entry close - costs.pct * 100))
  have hledger := abs_le.1 costs.abs_ledger_sub_le
  have hreturn : ∀ e x : ℚ, returnPct "long" e x = (x / e - 1) * 100 := fun e x => by
    simp [returnPct, direction]
  rw [hreturn] at hle
  set quotient := roundTo 10 close / roundTo 10 entry
  rw [hreturn] at hle hround
  have hle := abs_le.1 hle
  norm_num at hround hledger hle h
  rcases lt_abs.1 h with h | h <;> linarith

/-- A close next to a small entry that the rounding moves so far. -/
theorem exists_close (hentry : 0 < entry) (hsmall : entry ≤ 46 / 10 ^ 7) (hpos : 0 < roundTo 10 entry) :
    ∃ close, entry ≤ close ∧ close ≤ entry + 2 / 10 ^ 10 ∧
      106 / 10 ^ 7 < |roundTo 10 close / roundTo 10 entry - close / entry| := by
  set n := ⌊entry * 10 ^ 10⌋
  have hlow : (n : ℚ) ≤ entry * 10 ^ 10 := Int.floor_le _
  have hhigh : entry * 10 ^ 10 < n + 1 := Int.lt_floor_add_one _
  have hmove : 106 / 10 ^ 7 < 49 / 10 ^ 12 / entry := by
    rw [lt_div_iff₀ hentry]
    linarith
  rcases le_or_gt (roundTo 10 entry) entry with hdown | hup
  · -- the entry is rounded down, so the close is to be rounded up
    have hround : roundTo 10 ((n + 151 / 100) / 10 ^ 10) = ((n + 2 : ℤ) : ℚ) / 10 ^ 10 := by
      refine roundTo_eq_of_abs_sub_lt ?_
      rw [div_mul_cancel₀ _ (by norm_num)]
      push_cast
      rw [abs_lt]
      constructor <;> linarith
    refine ⟨(n + 151 / 100) / 10 ^ 10, by linarith, by linarith, ?_⟩
    rw [hround]
    refine lt_of_lt_of_le ?_ (le_abs_self _)
    have hle : ((n + 2 : ℤ) : ℚ) / 10 ^ 10 / entry ≤ ((n + 2 : ℤ) : ℚ) / 10 ^ 10 / roundTo 10 entry := by
      have hnonneg : (0 : ℚ) ≤ ((n + 2 : ℤ) : ℚ) / 10 ^ 10 := by
        push_cast
        linarith
      gcongr
    have hsplit : ((n + 2 : ℤ) : ℚ) / 10 ^ 10 / entry - (n + 151 / 100) / 10 ^ 10 / entry =
        49 / 10 ^ 12 / entry := by
      push_cast
      ring
    linarith
  · have hround : roundTo 10 ((n + 149 / 100) / 10 ^ 10) = ((n + 1 : ℤ) : ℚ) / 10 ^ 10 := by
      refine roundTo_eq_of_abs_sub_lt ?_
      rw [div_mul_cancel₀ _ (by norm_num)]
      push_cast
      rw [abs_lt]
      constructor <;> linarith
    refine ⟨(n + 149 / 100) / 10 ^ 10, by linarith, by linarith, ?_⟩
    rw [hround]
    refine lt_of_lt_of_le ?_ (neg_le_abs _)
    have hle : ((n + 1 : ℤ) : ℚ) / 10 ^ 10 / roundTo 10 entry ≤ ((n + 1 : ℤ) : ℚ) / 10 ^ 10 / entry := by
      have hnonneg : (0 : ℚ) ≤ ((n + 1 : ℤ) : ℚ) / 10 ^ 10 := by
        push_cast
        linarith
      gcongr
    have hsplit : (n + 149 / 100) / 10 ^ 10 / entry - ((n + 1 : ℤ) : ℚ) / 10 ^ 10 / entry =
        49 / 10 ^ 12 / entry := by
      push_cast
      ring
    linarith

/-- Whatever the costs, every small entry has a close next to it at which the validator refuses the
trade. -/
theorem small_entry_rejected (sha256 : String → String) (costs : Costs) (hfees : 0 ≤ costs.feesBps)
    (hslippage : 0 ≤ costs.slippageBps) (hentry : 0 < entry) (hsmall : entry ≤ 46 / 10 ^ 7) :
    ∃ close, entry ≤ close ∧ close ≤ entry + 2 / 10 ^ 10 ∧
      ∃ trades, simulateTrades sha256 (twoBars entry close) [⟨0, "long", none, none⟩] plainParams
          costs false = .ok trades ∧
        ¬ ∀ t ∈ trades, validateTradeContract sha256 t (legacyFixtureManifest sha256) = .ok () := by
  obtain ⟨close, hclose, hnear, hrefused⟩ : ∃ close, entry ≤ close ∧ close ≤ entry + 2 / 10 ^ 10 ∧
      ¬ PricesReconcile "long" entry close costs := by
    by_cases hpos : 0 < roundTo 10 entry
    · obtain ⟨close, hclose, hnear, hfar⟩ := exists_close hentry hsmall hpos
      exact ⟨close, hclose, hnear, not_pricesReconcile hfar⟩
    · exact ⟨entry, le_rfl, by norm_num, fun h => hpos h.1⟩
  obtain ⟨trades, htrades, haccepted⟩ := trades_accepted_iff sha256 (twoBars entry close)
    [⟨0, "long", none, none⟩] plainParams costs false (wellFormed_twoBars hentry hclose) (by decide)
    hfees hslippage
  refine ⟨close, hclose, hnear, trades, htrades, fun h => hrefused ?_⟩
  have hreconciles := haccepted.1 h _ (List.mem_singleton.2 rfl) 1 entry
    (holdingWindow_twoBars hentry close) (by simp)
  have htwo : partialTakes plainParams = none := by decide +kernel
  simpa only [Reconciles, htwo, decidedExit_twoBars] using hreconciles

/-! ## Trades in two fills -/

/-- In a partial mode every window of a small entry has fees at which the validator refuses the
trade: their amount is rounded to nothing. -/
theorem small_entry_rejected_in_halves (sha256 : String → String) {candles : List Candle}
    {params : Params} {sig : Signal} {cap : ℕ} (hbars : ∀ bar ∈ candles, WellFormed bar)
    (hside : sig.side = "long" ∨ sig.side = "short") (htwo : (partialTakes params).isSome)
    (hw : holdingWindow candles sig.idx (holdBarsOf params) = some (cap, entry))
    (hsmall : entry ≤ 1 / 25) :
    ∃ fees : ℚ, 0 ≤ fees ∧
      ∃ trades, simulateTrades sha256 candles [sig] params ⟨fees, 0⟩ false = .ok trades ∧
        ¬ ∀ t ∈ trades, validateTradeContract sha256 t (legacyFixtureManifest sha256) = .ok () := by
  obtain ⟨-, -, -, hentry⟩ := holdingWindow_eq_some hw
  obtain ⟨⟨tp1Pct, tp2Pct⟩, htakes⟩ := Option.isSome_iff_exists.1 htwo
  have hfees : 0 ≤ 49 / 10 ^ 10 / entry := by positivity
  set costs : Costs := ⟨49 / 10 ^ 10 / entry, 0⟩ with hcosts
  have hpct : entry * costs.pct = 49 / 10 ^ 14 := by
    rw [hcosts, Costs.pct]
    field_simp
    norm_num
  obtain ⟨trades, htrades, haccepted⟩ := trades_accepted_iff sha256 candles [sig] params costs false
    hbars (fun s hs => List.mem_singleton.1 hs ▸ hside) hfees le_rfl
  refine ⟨_, hfees, trades, htrades, fun h => ?_⟩
  have hreconciles := haccepted.1 h sig (List.mem_singleton.2 rfl) cap entry hw (by simp)
  simp only [Reconciles, htakes, FillsReconcile] at hreconciles
  obtain ⟨-, hcost, -⟩ := hreconciles
  have hzero : roundTo 12 (entry * (costs.pct * 100) / 100) = 0 := by
    have hamount : entry * (costs.pct * 100) / 100 = 49 / 10 ^ 14 := by
      rw [← hpct]
      ring
    rw [hamount]
    decide +kernel
  have hledger := abs_le.1 costs.abs_ledger_sub_le
  have hlarge : 12 / 10 ^ 10 ≤ costs.pct * 100 := by
    have hdiv : costs.pct * 100 = 49 / 10 ^ 12 / entry := by
      rw [hcosts, Costs.pct]
      field_simp
      norm_num
    rw [hdiv, le_div_iff₀ hentry]
    linarith
  rw [hzero, zero_div, zero_mul, zero_sub, abs_neg] at hcost
  have hcost := abs_le.1 hcost
  norm_num at hledger hcost hlarge
  linarith

end ResearchLab.Simulation
