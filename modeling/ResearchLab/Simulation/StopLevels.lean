import Mathlib
import ResearchLab.Simulation.Decisions

/-!
# The protective stop of every mode

Where the stop of a trade stands at the start of a bar, said of the bars behind it: the initial
level, the level behind the best price, the entry once a level is reached, or a distance that
shrinks bar by bar. The scans carry it along from bar to bar.
-/
namespace ResearchLab.Simulation
open Foundation

/-- The best price that a trade has seen. -/
def bestPrice (long : Bool) (entry : ℚ) (seen : List Candle) : ℚ :=
  if long then (seen.map Candle.high).foldl max entry else (seen.map Candle.low).foldl min entry

/-- A bar has touched the level on the side of the profit. -/
def reached (long : Bool) (l : Option ℚ) (seen : List Candle) : Bool :=
  seen.any fun bar => (l.filter (takeTouched long bar)).isSome

/-- A stop behind the best price, never behind the initial one. -/
def trailedStop (long : Bool) (entry trailPct : ℚ) (initial : Option ℚ) (seen : List Candle) :
    Option ℚ :=
  if seen = [] then initial
  else
    match level (bestPrice long entry seen) trailPct !long with
    | none => initial
    | some trail =>
        let floor := (truthy initial).getD trail
        some (if long then max floor trail else min floor trail)

/-- A stop at a distance that falls to nothing over the window. -/
def decayedStop (long : Bool) (entry stopPct : ℚ) (span : ℕ) (seen : List Candle) : Option ℚ :=
  level entry (stopPct * max 0 (1 - ((seen.length - 1 : ℕ) : ℚ) / span)) !long

/-- The stop of a rule when these bars are behind. -/
def ruleStop (rule : ExitRule) (long : Bool) (entry stopPct : ℚ) (span : ℕ) (seen : List Candle) :
    Option ℚ :=
  let initial := level entry stopPct !long
  match rule with
  | .fixed _ => initial
  | .trailing trailPct => trailedStop long entry trailPct initial seen
  | .breakEven triggerPct =>
      if reached long (level entry triggerPct long) seen then some entry else initial
  | .timeDecay => decayedStop long entry stopPct span seen
  | .partialTake tp1Pct _ =>
      if reached long (level entry tp1Pct long) seen then some entry else initial

/-- The stop in force at the start of the bar of an offset. -/
def stopInForce (params : Params) (long : Bool) (entry : ℚ) (bars : List Candle) (k : ℕ) :
    Option ℚ :=
  let stopPct := params.stopPct.getD 0
  if IsDynamic params then
    ruleStop (dynamicMode params).rule long entry stopPct (max 1 (bars.length - 1)) (bars.take k)
  -- in the baseline a stop at 0 is as good as none
  else truthy (level entry stopPct !long)

/-- The stop that the scan of the mode carries along. -/
def scannedStop (params : Params) (long : Bool) (entry : ℚ) (bars : List Candle) (k : ℕ) :
    Option ℚ :=
  let stopPct := params.stopPct.getD 0
  match partialTakes params with
  | some (tp1Pct, tp2Pct) =>
      ((partialScan long entry tp1Pct tp2Pct).stateAt (partialStart entry stopPct long) bars k).stop
  | none =>
      if IsDynamic params then
        let rule := (dynamicMode params).rule
        ((dynamicScanner rule long entry stopPct (max 1 (bars.length - 1))
          (level entry (scanTakePct rule (params.takePct.getD 0)) long)).stateAt
            { stop := level entry stopPct !long, water := entry } bars k).stop
      else truthy (level entry stopPct !long)

section
variable {long : Bool} {entry stopPct triggerPct price : ℚ} {seen : List Candle} {bar : Candle}

theorem bestPrice_append : bestPrice long entry (seen ++ [bar]) =
    if long then max (bestPrice long entry seen) bar.high
    else min (bestPrice long entry seen) bar.low := by
  cases long <;> simp [bestPrice]

theorem reached_append {l : Option ℚ} : reached long l (seen ++ [bar]) =
    (reached long l seen || (l.filter (takeTouched long bar)).isSome) := by
  simp [reached]

/-- The best price has reached a level in front of the entry when a bar has touched it. -/
theorem bestPrice_reaches (hentry : 0 < entry) (hlevel : level entry triggerPct long = some price) :
    (if long then price ≤ bestPrice long entry seen else bestPrice long entry seen ≤ price) ↔
      reached long (some price) seen = true := by
  have hpct : 0 < triggerPct := by
    by_contra hle
    rw [level, if_pos (not_lt.1 hle)] at hlevel
    cases hlevel
  have hfront : if long then entry < price else price < entry := by
    rw [level, if_neg (not_le.2 hpct)] at hlevel
    have hmove : 0 < entry * (triggerPct / 100) := by positivity
    obtain rfl := Option.some.inj hlevel
    cases long <;> simp only [Bool.false_eq_true, if_true, if_false] <;> linarith
  induction seen using List.reverseRecOn with
  | nil =>
    cases long with
    | true => simpa [bestPrice, reached] using hfront
    | false => simpa [bestPrice, reached] using hfront
  | append_singleton seen bar ih =>
    have htouched : ((some price).filter (takeTouched long bar)).isSome = takeTouched long bar price := by
      cases h : takeTouched long bar price <;> simp [Option.filter_some, h]
    simp only [reached_append, Bool.or_eq_true, ← ih, bestPrice_append, htouched]
    cases long with
    | true => simp [takeTouched]
    | false => simp [takeTouched]

end

/-! ## The scans carry the stop along -/

section
variable {rule : ExitRule} {long : Bool} {entry stopPct : ℚ} {span : ℕ} {take : Option ℚ}

/-- What one bar more does to the stop of a rule. -/
theorem moveStop_ruleStop (hentry : 0 < entry) (hsingle : ∀ tp1Pct tp2Pct, rule ≠ .partialTake tp1Pct tp2Pct)
    (seen : List Candle) (bar : Candle) :
    moveStop rule long entry stopPct span (level entry stopPct !long)
        (bestPrice long entry (seen ++ [bar]))
        ⟨ruleStop rule long entry stopPct span seen, bestPrice long entry seen, seen.length⟩ =
      ruleStop rule long entry stopPct span (seen ++ [bar]) := by
  cases rule with
  | fixed takePct => rfl
  | trailing trailPct =>
    simp only [moveStop, ruleStop, trailedStop, List.append_ne_nil_of_right_ne_nil _ (List.cons_ne_nil bar []),
      if_false]
    by_cases hpct : trailPct ≤ 0
    · -- a trail of no percentage never moves the stop
      simp [level, hpct]
    · simp only [level, if_neg hpct, orTrail]
  | breakEven triggerPct =>
    simp only [moveStop, ruleStop]
    cases htrigger : level entry triggerPct long with
    | none => simp [reached]
    | some trigger =>
      simp only [bestPrice_reaches hentry htrigger, reached_append, Bool.or_eq_true]
      split_ifs <;> simp_all
  | timeDecay => simp [moveStop, ruleStop, decayedStop]
  | partialTake tp1Pct tp2Pct => exact absurd rfl (hsingle tp1Pct tp2Pct)

theorem dynamic_fold_eq (hentry : 0 < entry)
    (hsingle : ∀ tp1Pct tp2Pct, rule ≠ .partialTake tp1Pct tp2Pct) (seen : List Candle) :
    seen.foldl (dynamicScanner rule long entry stopPct span take).next
        { stop := level entry stopPct !long, water := entry } =
      ⟨ruleStop rule long entry stopPct span seen, bestPrice long entry seen, seen.length⟩ := by
  induction seen using List.reverseRecOn with
  | nil => cases rule <;> simp [ruleStop, trailedStop, reached, decayedStop, bestPrice]
  | append_singleton seen bar ih =>
    rw [List.foldl_append, ih, List.foldl_cons, List.foldl_nil]
    simp only [dynamicScanner, ← bestPrice_append, moveStop_ruleStop hentry hsingle,
      List.length_append, List.length_singleton]

theorem partial_fold_eq {tp1Pct tp2Pct : ℚ} (seen : List Candle) :
    seen.foldl (partialScan long entry tp1Pct tp2Pct).next (partialStart entry stopPct long) =
      ⟨reached long (level entry tp1Pct long) seen,
        if reached long (level entry tp1Pct long) seen then some entry
        else level entry stopPct !long⟩ := by
  induction seen using List.reverseRecOn with
  | nil => simp [reached, partialStart]
  | append_singleton seen bar ih =>
    rw [List.foldl_append, ih, reached_append]
    simp only [List.foldl_cons, List.foldl_nil, partialScan, partialScanner]
    cases reached long (level entry tp1Pct long) seen with
    | true => simp
    | false =>
      cases ((level entry tp1Pct long).filter (takeTouched long bar)).isSome <;> simp

end

/-- The scans carry the stop in force along. -/
theorem stopInForce_eq {entry : ℚ} (hentry : 0 < entry) (params : Params) (long : Bool)
    (bars : List Candle) (k : ℕ) :
    stopInForce params long entry bars k = scannedStop params long entry bars k := by
  simp only [stopInForce, scannedStop, Scanner.stateAt, partialTakes]
  by_cases hmode : IsDynamic params
  · simp only [if_pos hmode]
    cases hrule : (dynamicMode params).rule with
    | partialTake tp1Pct tp2Pct => simp only [partial_fold_eq, ruleStop]
    | _ =>
      simp only
      rw [dynamic_fold_eq hentry (by simp)]
  · simp only [if_neg hmode]

end ResearchLab.Simulation
