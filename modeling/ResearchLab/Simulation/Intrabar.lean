import Mathlib
import ResearchLab.Foundation.Checks
import ResearchLab.Foundation.Hitting
import ResearchLab.Foundation.Rounding
import ResearchLab.Simulation.Exits

/-!
# What a bar proves

`resolve_ohlc_exit` says which level was touched first inside a bar, as far as open, high and low
tell. The truth is a price path: finitely many prices or a continuous function.
-/
namespace ResearchLab.Simulation
open Foundation

inductive ExitStatus
  | resolvedAdverseGap | ambiguousIntrabarOrder | resolvedSingleEvent | stillOpen
  deriving DecidableEq

structure Resolution where
  status : ExitStatus
  selected : Option (Outcome × ℚ)
  scenarios : List (Outcome × ℚ)
  returnBoundsPct : Option (ℚ × ℚ)
  deriving DecidableEq

/-- `_finite_float(value, field, positive=True)` of a finite number. -/
def positiveFloat (field : String) (value : ℚ) : Except String Unit :=
  if value ≤ 0 then .error (field ++ " must be positive and finite") else .ok ()

/-- `str(side).lower()`. -/
def lowerSide (side : String) : String := lower side

/-- The checks of `resolve_ohlc_exit`. -/
def checkBar (side : String) (entryPrice : ℚ) (bar : Candle) (stopPrice takePrice : Option ℚ) :
    Except String Unit := do
  if lowerSide side ≠ "long" ∧ lowerSide side ≠ "short" then throw "side must be long or short"
  positiveFloat "entry price" entryPrice
  positiveFloat "bar open" bar.openPrice
  positiveFloat "bar high" bar.high
  positiveFloat "bar low" bar.low
  if ¬(bar.low ≤ bar.openPrice ∧ bar.openPrice ≤ bar.high) then
    throw "bar OHLC bounds are inconsistent"
  stopPrice.toList.forM (positiveFloat "stop price")
  takePrice.toList.forM (positiveFloat "take price")

/-- The bar opens at the stop or behind it. -/
def adverseGap (long : Bool) (bar : Candle) (stop : ℚ) : Bool :=
  if long then decide (bar.openPrice ≤ stop) else decide (stop ≤ bar.openPrice)

/-- The result of a bar that passed the checks. -/
def resolveBar (side : String) (entryPrice : ℚ) (bar : Candle) (stopPrice takePrice : Option ℚ) :
    Resolution :=
  let long := isLong side
  let stopHit := stopPrice.filter (stopTouched long bar)
  let takeHit := takePrice.filter (takeTouched long bar)
  if stopPrice.any (adverseGap long bar) then
    ⟨.resolvedAdverseGap, some (.stop, bar.openPrice), [], none⟩
  else
    match stopHit, takeHit with
    | some stop, some take =>
        let r₁ := returnPct side entryPrice stop
        let r₂ := returnPct side entryPrice take
        ⟨.ambiguousIntrabarOrder, none, [(.stop, stop), (.take, take)],
          some (roundTo 10 (min r₁ r₂), roundTo 10 (max r₁ r₂))⟩
    | some stop, none => ⟨.resolvedSingleEvent, some (.stop, stop), [], none⟩
    | none, some take => ⟨.resolvedSingleEvent, some (.take, take), [], none⟩
    | none, none => ⟨.stillOpen, none, [], none⟩

def resolveOhlcExit (side : String) (entryPrice : ℚ) (bar : Candle)
    (stopPrice takePrice : Option ℚ) : Except String Resolution := do
  checkBar side entryPrice bar stopPrice takePrice
  return resolveBar (lowerSide side) entryPrice bar stopPrice takePrice

/-- What a resolution says may have been touched first. -/
def Resolution.reported (r : Resolution) : List (Option Outcome) :=
  if r.scenarios = [] then [r.selected.map Prod.fst] else r.scenarios.map fun s => some s.1

/-! ## Price paths -/

/-- The prices at which a level is touched, from above or from below. -/
def zone (below : Bool) : Option ℚ → Set ℝ
  | none => ∅
  | some level => if below then Set.Iic (level : ℝ) else Set.Ici (level : ℝ)

def stopZone (long : Bool) (stop : Option ℚ) : Set ℝ := zone long stop

def takeZone (long : Bool) (take : Option ℚ) : Set ℝ := zone (!long) take

/-- A path of prices over the time of a bar. -/
inductive PricePath
  | ticks (n : ℕ) (price : Fin (n + 1) → ℝ)
  | continuous (price : C(unitInterval, ℝ))

section
variable {T : Type} [LinearOrder T] [OrderBot T]

/-- The prices start at the open, stay in the range and attain both ends of it. -/
structure FollowsBar (bar : Candle) (price : T → ℝ) : Prop where
  start : price ⊥ = bar.openPrice
  above : ∀ t, (bar.low : ℝ) ≤ price t
  below : ∀ t, price t ≤ bar.high
  low : ∃ t, price t = bar.low
  high : ∃ t, price t = bar.high

/-- What is touched first of the stop and the take. -/
def TouchesFirst (stop take : Set ℝ) (price : T → ℝ) : Option Outcome → Prop
  | none => ∀ t, price t ∉ stop ∪ take
  | some .stop => HitsFirst price stop take
  | some .take => HitsFirst price take stop
  | some _ => False

end

def PricePath.Follows (bar : Candle) : PricePath → Prop
  | .ticks _ price => FollowsBar bar price
  | .continuous price => FollowsBar bar price

def PricePath.TouchesFirst (stop take : Set ℝ) (o : Option Outcome) : PricePath → Prop
  | .ticks _ price => Simulation.TouchesFirst stop take price o
  | .continuous price => Simulation.TouchesFirst stop take price o

/-- Two paths of the bar that touch different levels first. -/
def TwoOrders (bar : Candle) (stop take : Set ℝ) : Prop :=
  ∃ path path' : PricePath, ∃ o o', path.Follows bar ∧ path'.Follows bar ∧
    path.TouchesFirst stop take o ∧ path'.TouchesFirst stop take o' ∧ o ≠ o'

/-- What is reported is true of every path of the bar. -/
structure ReportsTruly (bar : Candle) (stop take : Set ℝ) (r : Resolution) : Prop where
  reported : ∀ path : PricePath, path.Follows bar → ∃ o ∈ r.reported, path.TouchesFirst stop take o
  untouched : r.status = .stillOpen →
    ∀ path : PricePath, path.Follows bar → path.TouchesFirst stop take none
  selected : ∀ o price, r.selected = some (o, price) →
    ∀ path : PricePath, path.Follows bar → path.TouchesFirst stop take (some o)

/-! ## Zones -/

variable {bar : Candle} {stop take : Option ℚ} {long below : Bool}

theorem isClosed_zone (below : Bool) (level : Option ℚ) : IsClosed (zone below level) := by
  cases level with
  | none => exact isClosed_empty
  | some level => cases below <;> [exact isClosed_Ici; exact isClosed_Iic]

/-- The stop is on the adverse side of the take. -/
def Apart (long : Bool) (stop take : Option ℚ) : Prop :=
  ∀ s ∈ stop, ∀ t ∈ take, if long then s < t else t < s

theorem apart_some {s t : ℚ} (h : if long then s < t else t < s) : Apart long (some s) (some t) := by
  intro s' hs' t' ht'
  rwa [← Option.mem_some_iff.1 hs', ← Option.mem_some_iff.1 ht']

theorem Apart.disjoint (h : Apart long stop take) :
    Disjoint (stopZone long stop) (takeZone long take) := by
  cases stop with
  | none => exact Set.empty_disjoint _
  | some s =>
    cases take with
    | none => exact Set.disjoint_empty _
    | some t =>
      have hst := h s rfl t rfl
      cases long with
      | true =>
        have hlt : (s : ℝ) < t := by exact_mod_cast hst
        exact Set.Iic_disjoint_Ici.2 hlt.not_ge
      | false =>
        have hlt : (t : ℝ) < s := by exact_mod_cast hst
        exact (Set.Iic_disjoint_Ici.2 hlt.not_ge).symm

/-- The extreme of the bar on the side of a zone. -/
def extreme (below : Bool) (bar : Candle) : ℚ := if below then bar.low else bar.high

theorem mem_zone_some {level price : ℚ} :
    (price : ℝ) ∈ zone below (some level) ↔ if below then price ≤ level else level ≤ price := by
  cases below <;> simp [zone]

theorem open_mem_stopZone :
    (bar.openPrice : ℝ) ∈ stopZone long stop ↔ stop.any (adverseGap long bar) = true := by
  cases stop with
  | none => simp [stopZone, zone]
  | some s => cases long <;> simp [stopZone, mem_zone_some, adverseGap]

theorem extreme_mem_stopZone :
    (extreme long bar : ℝ) ∈ stopZone long stop ↔ stop.any (stopTouched long bar) = true := by
  cases stop with
  | none => simp [stopZone, zone]
  | some s => cases long <;> simp [stopZone, mem_zone_some, stopTouched, extreme]

theorem extreme_mem_takeZone :
    (extreme (!long) bar : ℝ) ∈ takeZone long take ↔ take.any (takeTouched long bar) = true := by
  cases take with
  | none => simp [takeZone, zone]
  | some t => cases long <;> simp [takeZone, mem_zone_some, takeTouched, extreme]

section
variable {T : Type} [LinearOrder T] [OrderBot T] {price : T → ℝ}

theorem FollowsBar.attains (h : FollowsBar bar price) (below : Bool) :
    ∃ t, price t = extreme below bar := by
  cases below with
  | true => exact h.low
  | false => exact h.high

/-- A zone that the extreme of the bar is not in is never touched. -/
theorem FollowsBar.avoids (h : FollowsBar bar price) {level : Option ℚ}
    (hout : (extreme below bar : ℝ) ∉ zone below level) (t : T) : price t ∉ zone below level := by
  cases level with
  | none => exact Set.notMem_empty _
  | some level =>
    cases below with
    | true =>
      intro hin
      exact hout ((h.above t).trans hin)
    | false =>
      intro hin
      exact hout (le_trans (Set.mem_Ici.1 hin) (h.below t))

/-! ## The four ways to resolve a bar -/

theorem any_of_filter {α : Type} {o : Option α} {p : α → Bool} {a : α} (h : o.filter p = some a) :
    o = some a ∧ o.any p = true := by
  obtain ⟨rfl, hp⟩ := Option.filter_eq_some_iff.1 h
  exact ⟨rfl, hp⟩

theorem any_of_filter_none {α : Type} {o : Option α} {p : α → Bool} (h : o.filter p = none) :
    ¬ o.any p = true := by
  cases o with
  | none => exact Bool.false_ne_true
  | some a => simpa using h

/-- How a bar is resolved, by the zones that its open and its extremes are in. -/
theorem resolveBar_cases (side : String) (entryPrice : ℚ) (bar : Candle) (stop take : Option ℚ) :
    let long := isLong side
    let r := resolveBar side entryPrice bar stop take
    ((bar.openPrice : ℝ) ∈ stopZone long stop ∧
        r = ⟨.resolvedAdverseGap, some (.stop, bar.openPrice), [], none⟩) ∨
      (bar.openPrice : ℝ) ∉ stopZone long stop ∧
        (((extreme long bar : ℝ) ∈ stopZone long stop ∧
            (extreme (!long) bar : ℝ) ∈ takeZone long take ∧ r.status = .ambiguousIntrabarOrder ∧
            r.selected = none ∧ ∃ s ∈ stop, ∃ t ∈ take, r.scenarios = [(.stop, s), (.take, t)]) ∨
          ((extreme long bar : ℝ) ∈ stopZone long stop ∧
            (extreme (!long) bar : ℝ) ∉ takeZone long take ∧
            ∃ s ∈ stop, r = ⟨.resolvedSingleEvent, some (.stop, s), [], none⟩) ∨
          ((extreme long bar : ℝ) ∉ stopZone long stop ∧
            (extreme (!long) bar : ℝ) ∈ takeZone long take ∧
            ∃ t ∈ take, r = ⟨.resolvedSingleEvent, some (.take, t), [], none⟩) ∨
          ((extreme long bar : ℝ) ∉ stopZone long stop ∧
            (extreme (!long) bar : ℝ) ∉ takeZone long take ∧
            r = ⟨.stillOpen, none, [], none⟩)) := by
  simp only [open_mem_stopZone, extreme_mem_stopZone, extreme_mem_takeZone, resolveBar]
  by_cases hgap : stop.any (adverseGap (isLong side) bar) = true
  · exact .inl ⟨hgap, if_pos hgap⟩
  rw [if_neg hgap]
  refine .inr ⟨hgap, ?_⟩
  cases hstop : stop.filter (stopTouched (isLong side) bar) with
  | some s =>
    obtain ⟨hs, hstop⟩ := any_of_filter hstop
    cases htake : take.filter (takeTouched (isLong side) bar) with
    | some t =>
      obtain ⟨ht, htake⟩ := any_of_filter htake
      exact .inl ⟨hstop, htake, rfl, rfl, s, hs, t, ht, rfl⟩
    | none => exact .inr (.inl ⟨hstop, any_of_filter_none htake, s, hs, rfl⟩)
  | none =>
    have hstop := any_of_filter_none hstop
    cases htake : take.filter (takeTouched (isLong side) bar) with
    | some t =>
      obtain ⟨ht, htake⟩ := any_of_filter htake
      exact .inr (.inr (.inl ⟨hstop, htake, t, ht, rfl⟩))
    | none => exact .inr (.inr (.inr ⟨hstop, any_of_filter_none htake, rfl⟩))

end

/-! ## What holds of every path -/

section
variable {T : Type} [LinearOrder T] [OrderBot T] {price : T → ℝ}

/-- The reports on one path. -/
structure TrueOf (stop take : Set ℝ) (r : Resolution) (price : T → ℝ) : Prop where
  reported : ∃ o ∈ r.reported, TouchesFirst stop take price o
  untouched : r.status = .stillOpen → TouchesFirst stop take price none
  selected : ∀ o level, r.selected = some (o, level) → TouchesFirst stop take price (some o)

omit [OrderBot T] in
/-- A single selected outcome that the path has. -/
theorem trueOf_selected {S K : Set ℝ} {status : ExitStatus} {o : Outcome} {level : ℚ}
    (hstatus : status ≠ .stillOpen) (h : TouchesFirst S K price (some o)) :
    TrueOf S K ⟨status, some (o, level), [], none⟩ price where
  reported := ⟨some o, List.mem_singleton_self _, h⟩
  untouched hopen := absurd hopen hstatus
  selected o' level' hsel := by
    obtain ⟨rfl, rfl⟩ := Prod.mk.inj (Option.some.inj hsel)
    exact h

theorem trueOf_resolveBar {side : String} (entryPrice : ℚ) (hapart : Apart (isLong side) stop take)
    (hbar : FollowsBar bar price) (hfirst : HasHittingTimes price) :
    TrueOf (stopZone (isLong side) stop) (takeZone (isLong side) take)
      (resolveBar side entryPrice bar stop take) price := by
  have hdisjoint := hapart.disjoint
  obtain ⟨tS, htS⟩ := hbar.attains (isLong side)
  obtain ⟨tK, htK⟩ := hbar.attains (!isLong side)
  rcases resolveBar_cases side entryPrice bar stop take with
    ⟨hgap, hr⟩ | ⟨-, ⟨hS, -, hstatus, hsel, s, -, t, -, hscenarios⟩ | ⟨hS, hK, s, -, hr⟩ |
      ⟨hS, hK, t, -, hr⟩ | ⟨hS, hK, hr⟩⟩
  · rw [hr]
    refine trueOf_selected (by decide) ?_
    exact hitsFirst_of_start hdisjoint (by rw [hbar.start]; exact hgap)
  · refine ⟨?_, fun hopen => ?_, fun o level hsome => ?_⟩
    · have hin : price tS ∈ stopZone (isLong side) stop ∪ takeZone (isLong side) take :=
        .inl (htS ▸ hS)
      rw [Resolution.reported, hscenarios, if_neg (List.cons_ne_nil _ _)]
      rcases hfirst.hitsFirst_or (isClosed_zone _ _) (isClosed_zone _ _) hdisjoint hin with h | h
      · exact ⟨some .stop, by simp, h⟩
      · exact ⟨some .take, by simp, h⟩
    · rw [hstatus] at hopen
      cases hopen
    · rw [hsel] at hsome
      cases hsome
  · rw [hr]
    refine trueOf_selected (by decide) ?_
    exact hitsFirst_of_avoids (fun t => hbar.avoids hK t) (htS ▸ hS)
  · rw [hr]
    refine trueOf_selected (by decide) ?_
    exact hitsFirst_of_avoids (fun t => hbar.avoids hS t) (htK ▸ hK)
  · have hnone : TouchesFirst (stopZone (isLong side) stop) (takeZone (isLong side) take) price
        none := fun t hin => hin.elim (hbar.avoids hS t) (hbar.avoids hK t)
    rw [hr]
    exact ⟨⟨none, List.mem_singleton_self _, hnone⟩, fun _ => hnone, fun o level h => by cases h⟩

omit [OrderBot T] in
/-- A path touches one thing first. -/
theorem TouchesFirst.unique {S K : Set ℝ} {o o' : Option Outcome} (h : TouchesFirst S K price o)
    (h' : TouchesFirst S K price o') : o = o' := by
  have hnone : ∀ o, TouchesFirst S K price none → TouchesFirst S K price (some o) → False := by
    intro o hnever hsome
    cases o with
    | stop => exact hsome.elim fun t ht => hnever t (.inl ht.1)
    | take => exact hsome.elim fun t ht => hnever t (.inr ht.1)
    | timeExit | trail | partialBe => exact hsome
  cases o with
  | none =>
    cases o' with
    | none => rfl
    | some o' => exact (hnone o' h h').elim
  | some o =>
    cases o' with
    | none => exact (hnone o h' h).elim
    | some o' =>
      cases o with
      | stop =>
        cases o' with
        | stop => rfl
        | take => exact (HitsFirst.asymm h h').elim
        | timeExit | trail | partialBe => exact h'.elim
      | take =>
        cases o' with
        | stop => exact (HitsFirst.asymm h h').elim
        | take => rfl
        | timeExit | trail | partialBe => exact h'.elim
      | timeExit | trail | partialBe => exact h.elim

end

theorem PricePath.TouchesFirst.unique {S K : Set ℝ} {path : PricePath} {o o' : Option Outcome}
    (h : path.TouchesFirst S K o) (h' : path.TouchesFirst S K o') : o = o' := by
  cases path with
  | ticks n price => exact Simulation.TouchesFirst.unique h h'
  | continuous price => exact Simulation.TouchesFirst.unique h h'

theorem PricePath.trueOf {side : String} (entryPrice : ℚ) (hapart : Apart (isLong side) stop take) :
    ReportsTruly bar (stopZone (isLong side) stop) (takeZone (isLong side) take)
      (resolveBar side entryPrice bar stop take) := by
  have hticks : ∀ (n : ℕ) (price : Fin (n + 1) → ℝ), FollowsBar bar price →
      TrueOf (stopZone (isLong side) stop) (takeZone (isLong side) take)
        (resolveBar side entryPrice bar stop take) price := fun n price hbar =>
    trueOf_resolveBar entryPrice hapart hbar (hasHittingTimes_of_wellFoundedLT price)
  have hcontinuous : ∀ price : C(unitInterval, ℝ), FollowsBar bar price →
      TrueOf (stopZone (isLong side) stop) (takeZone (isLong side) take)
        (resolveBar side entryPrice bar stop take) price := fun price hbar =>
    trueOf_resolveBar entryPrice hapart hbar (hasHittingTimes_of_continuous price.continuous)
  refine ⟨fun path hbar => ?_, fun hopen path hbar => ?_, fun o level hsel path hbar => ?_⟩
  · cases path with
    | ticks n price => exact (hticks n price hbar).reported
    | continuous price => exact (hcontinuous price hbar).reported
  · cases path with
    | ticks n price => exact (hticks n price hbar).untouched hopen
    | continuous price => exact (hcontinuous price hbar).untouched hopen
  · cases path with
    | ticks n price => exact (hticks n price hbar).selected o level hsel
    | continuous price => exact (hcontinuous price hbar).selected o level hsel

/-! ## Both orders -/

/-- The path that goes to one extreme of the bar and then to the other. -/
def turning (below : Bool) (bar : Candle) : Fin 3 → ℝ :=
  ![(bar.openPrice : ℝ), (extreme below bar : ℝ), (extreme (!below) bar : ℝ)]

theorem follows_turning (below : Bool) (hlow : bar.low ≤ bar.openPrice)
    (hhigh : bar.openPrice ≤ bar.high) : FollowsBar bar (turning below bar) := by
  have hl : (bar.low : ℝ) ≤ bar.openPrice := by exact_mod_cast hlow
  have hh : (bar.openPrice : ℝ) ≤ bar.high := by exact_mod_cast hhigh
  refine ⟨rfl, fun t => ?_, fun t => ?_, ?_, ?_⟩
  · fin_cases t <;> cases below <;> simp [turning, extreme] <;> linarith
  · fin_cases t <;> cases below <;> simp [turning, extreme] <;> linarith
  · cases below with
    | true => exact ⟨1, rfl⟩
    | false => exact ⟨2, rfl⟩
  · cases below with
    | true => exact ⟨2, rfl⟩
    | false => exact ⟨1, rfl⟩

/-- It touches the zone of its first extreme first. -/
theorem turning_hitsFirst {A B : Set ℝ} (hdisjoint : Disjoint A B)
    (hopen : (bar.openPrice : ℝ) ∉ B) (hin : (extreme below bar : ℝ) ∈ A) :
    HitsFirst (turning below bar) A B := by
  refine ⟨1, hin, fun s hs => ?_⟩
  fin_cases s
  · exact hopen
  · exact hdisjoint.notMem_of_mem_left hin
  · exact absurd hs (by decide)

theorem twoOrders (hapart : Apart long stop take)
    (hlow : bar.low ≤ bar.openPrice) (hhigh : bar.openPrice ≤ bar.high)
    (hgap : (bar.openPrice : ℝ) ∉ stopZone long stop)
    (hopen : (bar.openPrice : ℝ) ∉ takeZone long take)
    (hS : (extreme long bar : ℝ) ∈ stopZone long stop)
    (hK : (extreme (!long) bar : ℝ) ∈ takeZone long take) :
    TwoOrders bar (stopZone long stop) (takeZone long take) :=
  ⟨.ticks 2 (turning long bar), .ticks 2 (turning (!long) bar), some .stop,
    some .take, follows_turning _ hlow hhigh, follows_turning _ hlow hhigh,
    turning_hitsFirst hapart.disjoint hopen hS, turning_hitsFirst hapart.disjoint.symm hgap hK,
    by decide⟩

/-- A path that starts in the zone of the take touches it first. -/
theorem takes_first (hapart : Apart long stop take)
    (hopen : (bar.openPrice : ℝ) ∈ takeZone long take) (path : PricePath)
    (hbar : path.Follows bar) :
    path.TouchesFirst (stopZone long stop) (takeZone long take) (some .take) := by
  cases path with
  | ticks n price => exact hitsFirst_of_start hapart.disjoint.symm (by rw [hbar.start]; exact hopen)
  | continuous price =>
    exact hitsFirst_of_start hapart.disjoint.symm (by rw [hbar.start]; exact hopen)

/-- A call with a valid bar, levels and side. -/
structure ValidCall (side : String) (entryPrice : ℚ) (bar : Candle) (stop take : Option ℚ) :
    Prop where
  sided : lowerSide side = "long" ∨ lowerSide side = "short"
  entry : 0 < entryPrice
  low : 0 < bar.low
  lowOpen : bar.low ≤ bar.openPrice
  openHigh : bar.openPrice ≤ bar.high
  stops : ∀ s ∈ stop, 0 < s
  takes : ∀ t ∈ take, 0 < t
  apart : Apart (isLong (lowerSide side)) stop take

theorem checkBar_ok {side : String} {entryPrice : ℚ}
    (h : ValidCall side entryPrice bar stop take) :
    checkBar side entryPrice bar stop take = .ok () := by
  have hpositive : ∀ field (x : ℚ), 0 < x → positiveFloat field x = .ok () :=
    fun field x hx => if_neg (not_le.2 hx)
  have hopen := h.low.trans_le h.lowOpen
  have hhigh := hopen.trans_le h.openHigh
  have hlevels : ∀ (field : String) (level : Option ℚ), (∀ x ∈ level, 0 < x) →
      level.toList.forM (positiveFloat field) = .ok () := fun field level hlevel =>
    forM_eq_ok.2 fun x hx => hpositive field x (hlevel x (Option.mem_toList.1 hx))
  have hside : ¬ (lowerSide side ≠ "long" ∧ lowerSide side ≠ "short") := fun hne =>
    h.sided.elim hne.1 hne.2
  rw [checkBar, if_neg hside, hpositive _ _ h.entry, hpositive _ _ hopen, hpositive _ _ hhigh,
    hpositive _ _ h.low, hlevels _ _ h.stops, hlevels _ _ h.takes]
  simp [bind, Except.bind, h.lowOpen, h.openHigh]

/-- What is reported of a bar is true, and an ambiguous bar has both orders unless it opens at or
beyond its take. -/
theorem bar_proves {side : String} {entryPrice : ℚ} (h : ValidCall side entryPrice bar stop take) :
    ∃ r, resolveOhlcExit side entryPrice bar stop take = .ok r ∧
      ReportsTruly bar (stopZone (isLong (lowerSide side)) stop)
        (takeZone (isLong (lowerSide side)) take) r ∧
      (r.status = .ambiguousIntrabarOrder →
        ((bar.openPrice : ℝ) ∉ takeZone (isLong (lowerSide side)) take →
          TwoOrders bar (stopZone (isLong (lowerSide side)) stop)
            (takeZone (isLong (lowerSide side)) take)) ∧
        ((bar.openPrice : ℝ) ∈ takeZone (isLong (lowerSide side)) take →
          ∀ path : PricePath, path.Follows bar →
            path.TouchesFirst (stopZone (isLong (lowerSide side)) stop)
              (takeZone (isLong (lowerSide side)) take) (some .take))) := by
  refine ⟨resolveBar (lowerSide side) entryPrice bar stop take, ?_,
    PricePath.trueOf entryPrice h.apart, fun hstatus => ⟨fun hopen => ?_, takes_first h.apart⟩⟩
  · rw [resolveOhlcExit, checkBar_ok h]
    rfl
  · rcases resolveBar_cases (lowerSide side) entryPrice bar stop take with
      ⟨-, hr⟩ | ⟨hgap, ⟨hS, hK, -⟩ | ⟨-, -, s, -, hr⟩ | ⟨-, -, t, -, hr⟩ | ⟨-, -, hr⟩⟩
    · rw [hr] at hstatus
      cases hstatus
    · exact twoOrders h.apart h.lowOpen h.openHigh hgap hopen hS hK
    all_goals
      rw [hr] at hstatus
      cases hstatus

/-- A long bar whose range reaches both levels. -/
theorem bar_proves_wideBar :
    ∃ r, resolveOhlcExit "long" 100 ⟨0, 100, 102, 98, 100⟩ (some 99) (some 101) = .ok r ∧
      ReportsTruly ⟨0, 100, 102, 98, 100⟩ (stopZone (isLong (lowerSide "long")) (some 99))
        (takeZone (isLong (lowerSide "long")) (some 101)) r ∧
      (r.status = .ambiguousIntrabarOrder →
        (((⟨0, 100, 102, 98, 100⟩ : Candle).openPrice : ℝ) ∉
            takeZone (isLong (lowerSide "long")) (some 101) →
          TwoOrders ⟨0, 100, 102, 98, 100⟩ (stopZone (isLong (lowerSide "long")) (some 99))
            (takeZone (isLong (lowerSide "long")) (some 101))) ∧
        (((⟨0, 100, 102, 98, 100⟩ : Candle).openPrice : ℝ) ∈
            takeZone (isLong (lowerSide "long")) (some 101) →
          ∀ path : PricePath, path.Follows ⟨0, 100, 102, 98, 100⟩ →
            path.TouchesFirst (stopZone (isLong (lowerSide "long")) (some 99))
              (takeZone (isLong (lowerSide "long")) (some 101)) (some .take))) :=
  bar_proves
    { sided := .inl (by decide +kernel)
      entry := by norm_num
      low := by norm_num
      lowOpen := by norm_num
      openHigh := by norm_num
      stops := by simp
      takes := by simp
      apart := by
        have hlong : isLong (lowerSide "long") = true := by decide +kernel
        exact apart_some (by rw [hlong]; norm_num) }

/-- A long bar that opens beyond its take and reaches its stop is called ambiguous, though every
path of it touches the take first. -/
theorem favourable_gap_is_ambiguous :
    ∃ r, resolveOhlcExit "long" 100 ⟨0, 105, 106, 95, 100⟩ (some 96) (some 104) = .ok r ∧
      r.status = .ambiguousIntrabarOrder ∧
      ¬ TwoOrders ⟨0, 105, 106, 95, 100⟩ (stopZone true (some 96)) (takeZone true (some 104)) := by
  have hapart : Apart true (some 96) (some 104) := apart_some (by norm_num)
  have hopen : ((105 : ℚ) : ℝ) ∈ takeZone true (some 104) :=
    mem_zone_some.2 (by norm_num)
  refine ⟨resolveBar (lowerSide "long") 100 ⟨0, 105, 106, 95, 100⟩ (some 96) (some 104),
    by decide +kernel, by decide +kernel, ?_⟩
  rintro ⟨path, path', o, o', hbar, hbar', htouch, htouch', hne⟩
  have ho := htouch.unique (takes_first hapart hopen path hbar)
  have ho' := htouch'.unique (takes_first hapart hopen path' hbar')
  exact hne (ho.trans ho'.symm)

end ResearchLab.Simulation
