import Mathlib
import ResearchLab.Simulation.Growth

/-!
# Excursions bound returns

The path of a trade covers every price at which a part of the trade is closed: the bars before
the exit cover the first take-profit, and the path ends with the price of the exit. So a trade
gains at most its best excursion before costs, and loses at most its worst.
-/
namespace ResearchLab.Simulation
open Foundation

/-! ## The prices that a path covers -/

/-- The price lies between the lowest and the highest price seen. -/
def PathExtremes.Covers (p : PathExtremes) (price : ℚ) : Prop :=
  (∃ low ∈ p.lo, low.1 ≤ price) ∧ ∃ high ∈ p.hi, price ≤ high.1

section
variable {p : PathExtremes} {price a b high low : ℚ} {off : ℕ} {bar : Candle}

theorem PathExtremes.Covers.between (ha : p.Covers a) (hb : p.Covers b) (hap : a ≤ price)
    (hpb : price ≤ b) : p.Covers price := by
  obtain ⟨⟨l, hl, hla⟩, -⟩ := ha
  obtain ⟨-, h, hh, hbh⟩ := hb
  exact ⟨⟨l, hl, hla.trans hap⟩, h, hh, hpb.trans hbh⟩

/-- What is seen is covered. -/
theorem covers_see (p : PathExtremes) (off : ℕ) (hlow : low ≤ price) (hhigh : price ≤ high) :
    (p.see high low off).Covers price := by
  constructor
  · cases hlo : p.lo with
    | none => exact ⟨(low, off), by simp [PathExtremes.see, hlo], hlow⟩
    | some l =>
      by_cases hl : low < l.1
      · exact ⟨(low, off), by simp [PathExtremes.see, hlo, hl], hlow⟩
      · exact ⟨l, by simp [PathExtremes.see, hlo, hl], (not_lt.1 hl).trans hlow⟩
  · cases hhi : p.hi with
    | none => exact ⟨(high, off), by simp [PathExtremes.see, hhi], hhigh⟩
    | some h =>
      by_cases hh : h.1 < high
      · exact ⟨(high, off), by simp [PathExtremes.see, hhi, hh], hhigh⟩
      · exact ⟨h, by simp [PathExtremes.see, hhi, hh], hhigh.trans (not_lt.1 hh)⟩

/-- What was covered stays covered. -/
theorem PathExtremes.Covers.see (hp : p.Covers price) (high low : ℚ) (off : ℕ) :
    (p.see high low off).Covers price := by
  obtain ⟨⟨l, hl, hlp⟩, h, hh, hph⟩ := hp
  rw [Option.mem_def] at hl hh
  constructor
  · by_cases hlow : low < l.1
    · exact ⟨(low, off), by simp [PathExtremes.see, hl, hlow], hlow.le.trans hlp⟩
    · exact ⟨l, by simp [PathExtremes.see, hl, hlow], hlp⟩
  · by_cases hhigh : h.1 < high
    · exact ⟨(high, off), by simp [PathExtremes.see, hh, hhigh], hph.trans hhigh.le⟩
    · exact ⟨h, by simp [PathExtremes.see, hh, hhigh], hph⟩

theorem PathExtremes.Covers.foldl (hp : p.Covers price) (seen : List (Candle × ℕ)) :
    (seen.foldl (fun p b => p.see b.1.high b.1.low b.2) p).Covers price := by
  induction seen generalizing p with
  | nil => exact hp
  | cons b rest ih => exact ih (hp.see _ _ _)

/-- Every price inside a bar of a path is covered. -/
theorem covers_seeBars {bars : List Candle} (hbar : bar ∈ bars) (hlow : bar.low ≤ price)
    (hhigh : price ≤ bar.high) (p : PathExtremes) : (seeBars p bars).Covers price := by
  obtain ⟨i, hi, hget⟩ := List.getElem_of_mem hbar
  have hmem : (bar, i) ∈ bars.zipIdx := by
    rw [List.mem_zipIdx_iff_getElem?, List.getElem?_eq_getElem hi, hget]
  rw [seeBars]
  generalize bars.zipIdx = seen at hmem
  induction seen generalizing p with
  | nil => cases hmem
  | cons b rest ih =>
    rw [List.foldl_cons]
    rcases List.mem_cons.1 hmem with rfl | hrest
    · exact (covers_see p i hlow hhigh).foldl rest
    · exact ih _ hrest

end

section
variable {candles : List Candle} {idx cap : ℕ} {exit : Exit} {entry price : ℚ} {side : String}

/-- The bars that the path of a trade sees whole. -/
def fullBars (candles : List Candle) (idx : ℕ) (exit : Exit) : List Candle :=
  if exit.outcome = .timeExit then barsBetween candles idx exit.idx
  else (candles.drop idx).take (exit.idx - idx)

/-- The extremes of the path of a trade. -/
def exitExtremes (candles : List Candle) (idx : ℕ) (exit : Exit) (entry : ℚ) : PathExtremes :=
  if exit.outcome = .timeExit then seeBars {} (fullBars candles idx exit)
  else
    (seeBars {} (fullBars candles idx exit)).see (knownPrices idx exit.idx entry exit.price).1
      (knownPrices idx exit.idx entry exit.price).2 (exit.idx - idx)

theorem returnPct_eq (hentry : 0 < entry) (side : String) (price : ℚ) :
    returnPct side entry price = direction side * ((price - entry) / entry * 100) := by
  rw [returnPct]
  field_simp

/-- The return at a covered price lies between the excursions. -/
theorem returnPct_between (side : String) (hentry : 0 < entry)
    (hcovers : (exitExtremes candles idx exit entry).Covers price) :
    -(tradePath candles idx exit entry side).maePct ≤ returnPct side entry price ∧
      returnPct side entry price ≤ (tradePath candles idx exit entry side).mfePct := by
  obtain ⟨⟨l, hl, hlow⟩, h, hh, hhigh⟩ := hcovers
  have hpath : tradePath candles idx exit entry side =
      if side = "long" then
        ⟨max 0 ((h.1 - entry) / entry * 100), max 0 ((entry - l.1) / entry * 100), h.2, l.2⟩
      else ⟨max 0 ((entry - l.1) / entry * 100), max 0 ((h.1 - entry) / entry * 100), l.2, h.2⟩ := by
    have hextremes : tradePath candles idx exit entry side =
        let hi := (exitExtremes candles idx exit entry).hi.getD (entry, 0)
        let lo := (exitExtremes candles idx exit entry).lo.getD (entry, 0)
        if side = "long" then
          ⟨max 0 ((hi.1 - entry) / entry * 100), max 0 ((entry - lo.1) / entry * 100), hi.2, lo.2⟩
        else
          ⟨max 0 ((entry - lo.1) / entry * 100), max 0 ((hi.1 - entry) / entry * 100), lo.2, hi.2⟩ := by
      simp only [tradePath, exitExtremes, fullBars]
      split_ifs <;> rfl
    rw [Option.mem_def] at hl hh
    simp only [hextremes, hl, hh, Option.getD_some]
  have hup : (price - entry) / entry * 100 ≤ (h.1 - entry) / entry * 100 := by gcongr
  have hdown : (entry - price) / entry * 100 ≤ (entry - l.1) / entry * 100 := by gcongr
  have hneg : (entry - price) / entry * 100 = -((price - entry) / entry * 100) := by ring
  rw [hneg] at hdown
  rw [returnPct_eq hentry, hpath]
  by_cases hside : side = "long"
  · simp only [direction, if_pos hside, one_mul]
    exact ⟨by linarith [le_max_right 0 ((entry - l.1) / entry * 100)], hup.trans (le_max_right _ _)⟩
  · simp only [direction, if_neg hside, neg_one_mul]
    exact ⟨by linarith [le_max_right 0 ((h.1 - entry) / entry * 100)],
      hdown.trans (le_max_right _ _)⟩

/-- A price inside a bar that the path sees whole is covered. -/
theorem covers_of_mem_fullBars {bar : Candle} (hbar : bar ∈ fullBars candles idx exit)
    (hlow : bar.low ≤ price) (hhigh : price ≤ bar.high) :
    (exitExtremes candles idx exit entry).Covers price := by
  have hcovers := covers_seeBars hbar hlow hhigh {}
  rw [exitExtremes]
  split_ifs
  · exact hcovers
  · exact hcovers.see _ _ _

theorem mem_of_mem_fullBars {bar : Candle} (hbar : bar ∈ fullBars candles idx exit) :
    bar ∈ candles := by
  rw [fullBars] at hbar
  split_ifs at hbar
  · exact mem_barsBetween hbar
  · exact List.mem_of_mem_drop (List.mem_of_mem_take hbar)

/-- A path that sees a bar whole sees the entry bar whole. -/
theorem barAt_mem_fullBars (hidx : idx < candles.length) {bar : Candle}
    (hbar : bar ∈ fullBars candles idx exit) :
    barAt candles idx ∈ fullBars candles idx exit := by
  have hdrop : candles.drop idx = barAt candles idx :: candles.drop (idx + 1) := by
    rw [List.drop_eq_getElem_cons hidx, barAt, List.getD_eq_getElem _ _ hidx]
  have hhead : ∀ n, bar ∈ (candles.drop idx).take n →
      barAt candles idx ∈ (candles.drop idx).take n := by
    intro n hn
    cases n with
    | zero => simp at hn
    | succ n => simp [hdrop]
  rw [fullBars] at hbar ⊢
  split_ifs at hbar ⊢
  · exact hhead _ hbar
  · exact hhead _ hbar

end

/-! ## The prices at which a trade is closed -/

section
variable {candles : List Candle} {idx cap : ℕ} {entry : ℚ}

/-- The price of the exit is covered, unless a scan reports a time exit. -/
theorem covers_exitOf {r : Option (ℕ × ℚ × Outcome)} (hbars : ∀ bar ∈ candles, WellFormed bar)
    (hidx : idx < cap) (hcap : cap < candles.length)
    (hr : ∀ k price outcome, r = some (k, price, outcome) → outcome ≠ .timeExit) :
    (exitExtremes candles idx (exitOf candles idx cap r) entry).Covers
      (exitOf candles idx cap r).price := by
  cases r with
  | none =>
    have hlast : (barsBetween candles idx cap)[cap - idx]? =
        some (barAt candles (idx + (cap - idx))) := barsBetween_getElem? hcap (by omega)
    rw [Nat.add_sub_cancel' hidx.le] at hlast
    have hbar := hbars _ (barAt_mem hcap)
    exact covers_of_mem_fullBars (List.mem_of_getElem? hlast) hbar.low_le_close hbar.close_le_high
  | some r =>
    obtain ⟨k, price, outcome⟩ := r
    have hout : (exitOf candles idx cap (some (k, price, outcome))).outcome ≠ .timeExit :=
      hr k price outcome rfl
    rw [exitExtremes, if_neg hout]
    refine covers_see _ _ ?_ ?_
    · simp only [knownPrices]
      split_ifs
      · exact min_le_right _ _
      · exact le_rfl
    · simp only [knownPrices]
      split_ifs
      · exact le_max_right _ _
      · exact le_rfl

/-- The state in which a scan ends is the one that the bars of the path lead to. -/
theorem last_eq_stateAt {σ : Type} {S : Scanner σ Candle (ℚ × Outcome)} {s : σ}
    (hout : ∀ s b e, S.exit? s b = some e → e.2 ≠ .timeExit) :
    let bars := fullBars candles idx
      (exitOf candles idx cap (S.run s (barsBetween candles idx cap)))
    S.last s (barsBetween candles idx cap) = S.stateAt s bars bars.length := by
  cases hrun : S.run s (barsBetween candles idx cap) with
  | none => exact S.last_of_none hrun
  | some r =>
    obtain ⟨k, price, outcome⟩ := r
    obtain ⟨-, b, -, hexit⟩ := S.run_eq_some.1 hrun
    have hne : (exitOf candles idx cap (some (k, price, outcome))).outcome ≠ .timeExit :=
      hout _ b _ hexit
    have hk : k ≤ cap + 1 - idx := by
      have := S.lt_of_run hrun
      rw [barsBetween, List.length_take] at this
      omega
    have hbars : fullBars candles idx (exitOf candles idx cap (some (k, price, outcome))) =
        (barsBetween candles idx cap).take k := by
      rw [fullBars, if_neg hne, barsBetween, List.take_take, Nat.min_eq_left hk]
      simp [exitOf]
    simp only [hbars]
    rw [S.last_of_some hrun, Scanner.stateAt, Scanner.stateAt, List.take_length]

theorem outcome_baselineScanner {long : Bool} {stop take : Option ℚ} :
    ∀ s b e, (baselineScanner long stop take).exit? s b = some e → e.2 ≠ .timeExit := by
  intro s b e h
  simp only [baselineScanner] at h
  cases hstop : (truthy stop).filter (stopTouched long b) with
  | some price =>
    rw [hstop] at h
    cases h
    simp
  | none =>
    rw [hstop] at h
    obtain ⟨price, -, rfl⟩ := Option.map_eq_some_iff.1 h
    simp

theorem outcome_dynamicScanner {rule : ExitRule} {long : Bool} {entry stopPct : ℚ} {span : ℕ}
    {take : Option ℚ} :
    ∀ s b e, (dynamicScanner rule long entry stopPct span take).exit? s b = some e →
      e.2 ≠ .timeExit := by
  intro s b e h
  simp only [dynamicScanner] at h
  cases hstop : s.stop.filter (stopTouched long b) with
  | some price =>
    rw [hstop] at h
    cases h
    cases rule <;> simp [stopOutcome]
  | none =>
    rw [hstop] at h
    obtain ⟨price, -, rfl⟩ := Option.map_eq_some_iff.1 h
    simp

theorem outcome_partialScan {long : Bool} {entry tp1Pct tp2Pct : ℚ} :
    ∀ s b e, (partialScan long entry tp1Pct tp2Pct).exit? s b = some e → e.2 ≠ .timeExit := by
  intro s b e h
  simp only [partialScan, partialScanner] at h
  split_ifs at h
  · obtain ⟨price, -, rfl⟩ := Option.map_eq_some_iff.1 h
    simp
  · cases htake : (level entry tp2Pct long).filter (takeTouched long b) with
    | some price =>
      rw [htake] at h
      cases h
      simp
    | none =>
      rw [htake] at h
      obtain ⟨price, -, rfl⟩ := Option.map_eq_some_iff.1 h
      simp

/-- No scan reports a time exit. -/
theorem ne_timeExit_of_run {σ : Type} {S : Scanner σ Candle (ℚ × Outcome)} {s : σ}
    {bars : List Candle} (hout : ∀ s b e, S.exit? s b = some e → e.2 ≠ .timeExit) :
    ∀ k price outcome, S.run s bars = some (k, price, outcome) → outcome ≠ .timeExit := by
  intro k price outcome hrun
  obtain ⟨-, b, -, hexit⟩ := S.run_eq_some.1 hrun
  exact hout _ b _ hexit

end

section
variable {candles : List Candle} {sig : Signal} {cap : ℕ} {entry stopPct tp1Pct tp2Pct : ℚ}

/-- The first take-profit of a trade that has sold its first half is covered: a bar before the
exit has reached it, and it lies beyond the entry. -/
theorem covers_firstTake (hbars : ∀ bar ∈ candles, WellFormed bar) (hidx : sig.idx < candles.length)
    (hentry : 0 < entry) (hopen : (barAt candles sig.idx).openPrice = entry)
    (hfilled : (partialExit candles sig cap entry stopPct tp1Pct tp2Pct).2 = true) :
    (exitExtremes candles sig.idx
      (partialExit candles sig cap entry stopPct tp1Pct tp2Pct).1 entry).Covers
        ((level entry tp1Pct (isLong sig.side)).getD entry) := by
  set S := partialScan (isLong sig.side) entry tp1Pct tp2Pct with hS
  set start := partialStart entry stopPct (isLong sig.side)
  set exit := (partialExit candles sig cap entry stopPct tp1Pct tp2Pct).1 with hexit
  set bars := fullBars candles sig.idx exit with hfull
  have hlast : S.last start (barsBetween candles sig.idx cap) = S.stateAt start bars bars.length :=
    last_eq_stateAt outcome_partialScan
  -- the first half is sold at a bar that the path sees whole
  have hreached : ∀ k, (S.stateAt start bars k).filledFirst = true →
      ∃ price, level entry tp1Pct (isLong sig.side) = some price ∧
        ∃ bar ∈ bars, takeTouched (isLong sig.side) bar price = true := by
    refine S.stateAt_induction (P := fun st => st.filledFirst = true →
      ∃ price, level entry tp1Pct (isLong sig.side) = some price ∧
        ∃ bar ∈ bars, takeTouched (isLong sig.side) bar price = true)
      (fun h => absurd h Bool.false_ne_true) fun st bar hbar ih h => ?_
    simp only [S, partialScan, partialScanner] at h
    split_ifs at h with hnow
    · obtain ⟨price, hprice⟩ := Option.isSome_iff_exists.1 hnow.2
      obtain ⟨hlevel, htouch⟩ := Option.filter_eq_some_iff.1 hprice
      exact ⟨price, hlevel, bar, hbar, htouch⟩
    · exact ih h
  obtain ⟨price, hlevel, bar, hbar, htouch⟩ := hreached bars.length (hlast ▸ hfilled)
  have hfirst := hbars _ (mem_of_mem_fullBars (barAt_mem_fullBars hidx hbar))
  have hcoversEntry : (exitExtremes candles sig.idx exit entry).Covers entry :=
    covers_of_mem_fullBars (barAt_mem_fullBars hidx hbar) (hopen ▸ hfirst.low_le_open)
      (hopen ▸ hfirst.open_le_high)
  have hwell := hbars _ (mem_of_mem_fullBars hbar)
  have horder := hwell.low_le_open.trans hwell.open_le_high
  rw [hlevel, Option.getD_some]
  simp only [level] at hlevel
  split_ifs at hlevel with hpct hlong
  · obtain rfl := Option.some.inj hlevel
    have htouch : entry * (1 + tp1Pct / 100) ≤ bar.high := by simpa [takeTouched, hlong] using htouch
    have hgain : 0 ≤ entry * (tp1Pct / 100) := by have := not_le.1 hpct; positivity
    exact hcoversEntry.between (covers_of_mem_fullBars hbar horder le_rfl) (by linarith) htouch
  · obtain rfl := Option.some.inj hlevel
    have htouch : bar.low ≤ entry * (1 - tp1Pct / 100) := by simpa [takeTouched, hlong] using htouch
    have hgain : 0 ≤ entry * (tp1Pct / 100) := by have := not_le.1 hpct; positivity
    exact (covers_of_mem_fullBars hbar le_rfl horder).between hcoversEntry htouch (by linarith)

theorem covers_partialExit (hbars : ∀ bar ∈ candles, WellFormed bar) (hidx : sig.idx < cap)
    (hcap : cap < candles.length) :
    (exitExtremes candles sig.idx
      (partialExit candles sig cap entry stopPct tp1Pct tp2Pct).1 entry).Covers
        (partialExit candles sig cap entry stopPct tp1Pct tp2Pct).1.price :=
  covers_exitOf hbars hidx hcap (ne_timeExit_of_run outcome_partialScan)

theorem covers_singleExit {takePct : ℚ} {rule : Option ExitRule}
    (hbars : ∀ bar ∈ candles, WellFormed bar) (hidx : sig.idx < cap) (hcap : cap < candles.length) :
    (exitExtremes candles sig.idx
      (singleExit candles sig cap entry stopPct takePct rule) entry).Covers
        (singleExit candles sig cap entry stopPct takePct rule).price := by
  cases rule with
  | none => exact covers_exitOf hbars hidx hcap (ne_timeExit_of_run outcome_baselineScanner)
  | some rule => exact covers_exitOf hbars hidx hcap (ne_timeExit_of_run outcome_dynamicScanner)

end

/-! ## Trades -/

section
variable {sha256 : String → String} {candles : List Candle} {params : Params} {costs : Costs}
  {requireCompleteHorizon : Bool} {sig : Signal} {cap : ℕ} {entry : ℚ} {t : Trade}

/-- The legs in which a trade is closed: the share and the price of each. -/
def closedLegs (candles : List Candle) (params : Params) (sig : Signal) (cap : ℕ) (entry : ℚ) :
    List (ℚ × ℚ) :=
  match partialTakes params with
  | some (tp1Pct, tp2Pct) =>
      let left := partialExit candles sig cap entry (params.stopPct.getD 0) tp1Pct tp2Pct
      if left.2 then
        [(1 / 2, (level entry tp1Pct (isLong sig.side)).getD entry), (1 / 2, left.1.price)]
      else [(1, left.1.price)]
  | none => [(1, (decidedExit candles params sig cap entry).price)]

/-- The return of a trade before costs: that of its legs, weighted by their shares. -/
def legsReturn (side : String) (entry : ℚ) (legs : List (ℚ × ℚ)) : ℚ :=
  (legs.map fun leg => leg.1 * returnPct side entry leg.2).sum

theorem weighted_sum_between {α : Type} {weight value : α → ℚ} {a b : ℚ} {l : List α}
    (hweight : ∀ x ∈ l, 0 ≤ weight x) (hvalue : ∀ x ∈ l, a ≤ value x ∧ value x ≤ b) :
    (l.map weight).sum * a ≤ (l.map fun x => weight x * value x).sum ∧
      (l.map fun x => weight x * value x).sum ≤ (l.map weight).sum * b := by
  induction l with
  | nil => simp
  | cons x rest ih =>
    have hx := hweight x List.mem_cons_self
    obtain ⟨hlow, hhigh⟩ := hvalue x List.mem_cons_self
    obtain ⟨ihlow, ihhigh⟩ := ih (fun y hy => hweight y (List.mem_cons_of_mem x hy))
      fun y hy => hvalue y (List.mem_cons_of_mem x hy)
    have h₁ := mul_le_mul_of_nonneg_left hlow hx
    have h₂ := mul_le_mul_of_nonneg_left hhigh hx
    simp only [List.map_cons, List.sum_cons, add_mul]
    exact ⟨by linarith, by linarith⟩

theorem closedLegs_shares (candles : List Candle) (params : Params) (sig : Signal) (cap : ℕ)
    (entry : ℚ) : (∀ leg ∈ closedLegs candles params sig cap entry, 0 ≤ leg.1) ∧
    ((closedLegs candles params sig cap entry).map Prod.fst).sum = 1 := by
  rw [closedLegs]
  cases partialTakes params with
  | none => norm_num
  | some takes =>
    simp only
    split_ifs <;> norm_num

/-- The path of a trade covers the prices of its legs. -/
theorem covers_closedLegs (hbars : ∀ bar ∈ candles, WellFormed bar) (hidx : sig.idx < cap)
    (hcap : cap < candles.length) (hentry : 0 < entry)
    (hopen : (barAt candles sig.idx).openPrice = entry) {leg : ℚ × ℚ}
    (hleg : leg ∈ closedLegs candles params sig cap entry) :
    (exitExtremes candles sig.idx (decidedExit candles params sig cap entry) entry).Covers leg.2 := by
  rw [closedLegs] at hleg
  have hexit := decidedExit_eq params candles sig cap entry
  cases htwo : partialTakes params with
  | none =>
    rw [htwo] at hleg hexit
    obtain rfl := List.mem_singleton.1 hleg
    simp only at hexit ⊢
    rw [hexit]
    exact covers_singleExit hbars hidx hcap
  | some takes =>
    obtain ⟨tp1Pct, tp2Pct⟩ := takes
    rw [htwo] at hleg hexit
    simp only at hleg hexit
    rw [hexit]
    split_ifs at hleg with hfilled
    · rcases List.mem_cons.1 hleg with rfl | hleg
      · exact covers_firstTake hbars (hidx.trans hcap) hentry hopen hfilled
      · obtain rfl := List.mem_singleton.1 hleg
        exact covers_partialExit hbars hidx hcap
    · obtain rfl := List.mem_singleton.1 hleg
      exact covers_partialExit hbars hidx hcap

theorem decidedExit_between (params : Params) (entry : ℚ) (hidx : sig.idx < cap) (hcap : cap < candles.length) :
    sig.idx ≤ (decidedExit candles params sig cap entry).idx ∧
      (decidedExit candles params sig cap entry).idx ≤ cap := by
  rw [decidedExit_eq]
  cases partialTakes params with
  | none => exact ⟨le_singleExit_idx hidx, singleExit_idx_le hidx hcap⟩
  | some takes => exact ⟨le_partialExit_idx hidx, partialExit_idx_le hidx hcap⟩

theorem openPrice_of_holdingWindow {idx : ℕ} {holdBars : ℤ}
    (h : holdingWindow candles idx holdBars = some (cap, entry)) :
    (barAt candles idx).openPrice = entry := by
  simp only [holdingWindow] at h
  split_ifs at h
  exact congrArg Prod.snd (Option.some.inj h)

/-- A trade reports, rounded, the exit, the legs and the path that were decided for its signal:
its exit lies in the holding window, its return before costs between its excursions, and the
costs are subtracted once. -/
structure BoundedTrade (candles : List Candle) (params : Params) (costs : Costs) (sig : Signal)
    (cap : ℕ) (entry : ℚ) (t : Trade) : Prop where
  idx_le_exit : sig.idx ≤ (decidedExit candles params sig cap entry).idx
  exit_le : ((decidedExit candles params sig cap entry).idx : ℤ) ≤
    min (sig.idx + holdBarsOf params) (candles.length - 1)
  exitTs_eq : t.exitTs = (barAt candles (decidedExit candles params sig cap entry).idx).ts
  legs_eq : ∀ prices ∈ t.partialLegPrices,
    prices = (closedLegs candles params sig cap entry).map Prod.snd
  mfe_eq : t.mfePct = roundTo 4
    (tradePath candles sig.idx (decidedExit candles params sig cap entry) entry sig.side).mfePct
  mae_eq : t.maePct = roundTo 4
    (tradePath candles sig.idx (decidedExit candles params sig cap entry) entry sig.side).maePct
  loss_le : -(tradePath candles sig.idx (decidedExit candles params sig cap entry) entry
    sig.side).maePct ≤ legsReturn sig.side entry (closedLegs candles params sig cap entry)
  gain_le : legsReturn sig.side entry (closedLegs candles params sig cap entry) ≤
    (tradePath candles sig.idx (decidedExit candles params sig cap entry) entry sig.side).mfePct
  gross_eq : ∀ gross ∈ t.grossPct, gross = roundTo 4
    (legsReturn sig.side entry (closedLegs candles params sig cap entry))
  net_eq : t.netPct = roundTo 4 (legsReturn sig.side entry
    (closedLegs candles params sig cap entry) - (costs.feesBps + costs.slippageBps) / 100)

theorem costs_pct_mul (costs : Costs) :
    costs.pct * 100 = (costs.feesBps + costs.slippageBps) / 100 := by
  rw [Costs.pct]
  ring

/-- The return of a partial exit is that of its legs. -/
theorem legsReturn_partial (candles : List Candle) (sig : Signal) (cap : ℕ) (entry : ℚ)
    {tp1Pct tp2Pct : ℚ} (htwo : partialTakes params = some (tp1Pct, tp2Pct)) :
    let left := partialExit candles sig cap entry (params.stopPct.getD 0) tp1Pct tp2Pct
    let firstExit := if left.2 then (level entry tp1Pct (isLong sig.side)).getD entry else entry
    (if left.2 then (1 / 2 : ℚ) else 0) *
        (if left.2 then returnPct sig.side entry firstExit else 0) +
          (1 - if left.2 then 1 / 2 else 0) * returnPct sig.side entry left.1.price =
      legsReturn sig.side entry (closedLegs candles params sig cap entry) := by
  simp only [closedLegs, htwo, legsReturn]
  split_ifs
  · simp only [List.map_cons, List.map_nil, List.sum_cons, List.sum_nil]
    ring
  · simp

/-- The step lemma: the trade of one signal. -/
theorem bounded_of_tradeOf (hbars : ∀ bar ∈ candles, WellFormed bar)
    (ht : tradeOf sha256 candles params costs requireCompleteHorizon sig = .ok (some t)) :
    ∃ cap entry, holdingWindow candles sig.idx (holdBarsOf params) = some (cap, entry) ∧
      BoundedTrade candles params costs sig cap entry t := by
  obtain ⟨cap, entry, hw, htrade⟩ := tradeOf_eq_some ht
  obtain ⟨hidx, hcap, hhold, hentry⟩ := holdingWindow_eq_some hw
  have hopen := openPrice_of_holdingWindow hw
  obtain ⟨hge, hle⟩ := decidedExit_between params entry hidx hcap
  obtain ⟨hshares, hone⟩ := closedLegs_shares candles params sig cap entry
  obtain ⟨hloss, hgain⟩ := weighted_sum_between hshares fun leg hleg =>
    returnPct_between sig.side hentry
      (covers_closedLegs hbars hidx hcap hentry hopen hleg)
  rw [hone, one_mul, ← legsReturn] at hloss hgain
  have hexit_le : ((decidedExit candles params sig cap entry).idx : ℤ) ≤
      min (sig.idx + holdBarsOf params) (candles.length - 1) := by omega
  refine ⟨cap, entry, hw, ?_⟩
  rcases htrade with ⟨hnone, rfl⟩ | ⟨tp1Pct, tp2Pct, htwo, hbind⟩
  · have hgross : legsReturn sig.side entry (closedLegs candles params sig cap entry) =
        returnPct sig.side entry (decidedExit candles params sig cap entry).price := by
      simp [closedLegs, hnone, legsReturn]
    exact {
      idx_le_exit := hge
      exit_le := hexit_le
      exitTs_eq := by simp only [finalTrade, describeTrade]
      legs_eq := by simp [finalTrade, describeTrade]
      mfe_eq := by simp only [finalTrade, describeTrade]
      mae_eq := by simp only [finalTrade, describeTrade]
      loss_le := hloss
      gain_le := hgain
      gross_eq := by simp [finalTrade, describeTrade]
      net_eq := by simp only [finalTrade, describeTrade, hgross, costs_pct_mul] }
  · have hcore := bindPartialTrade_core hbind
    rw [partialDynamicTrade_eq] at hcore
    have hexit : decidedExit candles params sig cap entry =
        (partialExit candles sig cap entry (params.stopPct.getD 0) tp1Pct tp2Pct).1 := by
      rw [decidedExit_eq, htwo]
    have hgross := legsReturn_partial candles sig cap entry htwo
    simp only at hgross
    exact {
      idx_le_exit := hge
      exit_le := hexit_le
      exitTs_eq := by simp only [hcore, describePartial, describeTrade, hexit]
      legs_eq := by
        rw [hcore]
        simp only [describePartial, closedLegs, htwo, Option.mem_def, Option.some.injEq]
        rintro prices rfl
        split_ifs <;> rfl
      mfe_eq := by simp only [hcore, describePartial, describeTrade, hexit]
      mae_eq := by simp only [hcore, describePartial, describeTrade, hexit]
      loss_le := hloss
      gain_le := hgain
      gross_eq := by
        rw [hcore, ← hgross]
        simp [describePartial]
      net_eq := by simp only [hcore, describePartial, describeTrade, ← hgross, costs_pct_mul] }

theorem mem_of_tradesOf {α : Type} {trade : Signal → Except String (Option α)}
    {signals : List Signal} {trades : List α} (h : tradesOf trade signals = .ok trades) {t : α}
    (ht : t ∈ trades) : ∃ sig ∈ signals, trade sig = .ok (some t) := by
  induction signals generalizing trades with
  | nil =>
    obtain rfl := Except.ok.inj h
    cases ht
  | cons sig rest ih =>
    rw [tradesOf] at h
    cases hsig : trade sig with
    | error e => simp [hsig] at h
    | ok made =>
      rw [hsig] at h
      cases made with
      | none =>
        obtain ⟨sig', hsig', htrade⟩ := ih h ht
        exact ⟨sig', List.mem_cons_of_mem sig hsig', htrade⟩
      | some t' =>
        obtain ⟨later, hlater, rfl⟩ := map_eq_ok.1 h
        rcases List.mem_cons.1 ht with rfl | ht
        · exact ⟨sig, List.mem_cons_self, hsig⟩
        · obtain ⟨sig', hsig', htrade⟩ := ih hlater ht
          exact ⟨sig', List.mem_cons_of_mem sig hsig', htrade⟩

/-- Every trade of a simulation leaves in its holding window, earns before costs no more than its
best excursion and loses no more than its worst, and pays the costs once. -/
theorem excursions_bound_returns {signals : List Signal} {trades : List Trade}
    (hbars : ∀ bar ∈ candles, WellFormed bar)
    (h : simulateTrades sha256 candles signals params costs requireCompleteHorizon = .ok trades) :
    ∀ t ∈ trades, ∃ sig ∈ signals, ∃ cap entry,
      holdingWindow candles sig.idx (holdBarsOf params) = some (cap, entry) ∧
        BoundedTrade candles params costs sig cap entry t := by
  intro t ht
  obtain ⟨sig, hsig, htrade⟩ := mem_of_tradesOf h ht
  exact ⟨sig, hsig, bounded_of_tradeOf hbars htrade⟩

theorem excursions_bound_returns_dippingBars :
    ∃ trades, simulateTrades Sha256.sha256 dippingBars
        [⟨0, "long", none, none⟩, ⟨0, "short", none, none⟩]
        { holdBars := some 2, stopPct := some 2, takePct := some 2 } ⟨5, 2⟩ false = .ok trades ∧
      trades.length = 2 ∧
      ∀ t ∈ trades, ∃ sig ∈ [⟨0, "long", none, none⟩, ⟨0, "short", none, none⟩], ∃ cap entry,
        holdingWindow dippingBars sig.idx
            (holdBarsOf { holdBars := some 2, stopPct := some 2, takePct := some 2 }) =
          some (cap, entry) ∧
        BoundedTrade dippingBars { holdBars := some 2, stopPct := some 2, takePct := some 2 } ⟨5, 2⟩
          sig cap entry t := by
  have hrun : simulateTrades Sha256.sha256 dippingBars
      [⟨0, "long", none, none⟩, ⟨0, "short", none, none⟩]
      { holdBars := some 2, stopPct := some 2, takePct := some 2 } ⟨5, 2⟩ false = .ok _ :=
    simulateTrades_baseline rfl _
  exact ⟨_, hrun, by decide +kernel, excursions_bound_returns (by decide +kernel) hrun⟩

end

end ResearchLab.Simulation
