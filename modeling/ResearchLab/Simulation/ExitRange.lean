import Mathlib
import ResearchLab.Simulation.Decisions

/-!
# Exits stay in the range of their window

Whatever the mode and its percentages, a trade leaves at a price between the lowest low and the
highest high of its window: a touched level lies inside the bar that touches it on one side, and
behind the entry or an earlier price on the other.
-/
namespace ResearchLab.Simulation
open Foundation

/-- Positive prices in the order of a bar. -/
structure WellFormed (bar : Candle) : Prop where
  low_pos : 0 < bar.low
  low_le_open : bar.low ≤ bar.openPrice
  open_le_high : bar.openPrice ≤ bar.high
  low_le_close : bar.low ≤ bar.close
  close_le_high : bar.close ≤ bar.high

theorem wellFormed_iff {bar : Candle} : WellFormed bar ↔
    0 < bar.low ∧ bar.low ≤ bar.openPrice ∧ bar.openPrice ≤ bar.high ∧ bar.low ≤ bar.close ∧
      bar.close ≤ bar.high :=
  ⟨fun ⟨h₁, h₂, h₃, h₄, h₅⟩ => ⟨h₁, h₂, h₃, h₄, h₅⟩,
    fun ⟨h₁, h₂, h₃, h₄, h₅⟩ => ⟨h₁, h₂, h₃, h₄, h₅⟩⟩

instance (bar : Candle) : Decidable (WellFormed bar) := decidable_of_iff _ wellFormed_iff.symm

theorem WellFormed.close_pos {bar : Candle} (h : WellFormed bar) : 0 < bar.close :=
  h.low_pos.trans_le h.low_le_close

theorem WellFormed.high_pos {bar : Candle} (h : WellFormed bar) : 0 < bar.high :=
  h.close_pos.trans_le h.close_le_high

/-- The lowest low and the highest high of the bars enclose the price. -/
def InRange (bars : List Candle) (price : ℚ) : Prop :=
  (∃ bar ∈ bars, bar.low ≤ price) ∧ ∃ bar ∈ bars, price ≤ bar.high

/-- The price does not exceed the range on the side to which a trade gains. -/
def Behind (long : Bool) (bars : List Candle) (price : ℚ) : Prop :=
  ∃ bar ∈ bars, if long then price ≤ bar.high else bar.low ≤ price

section
variable {candles bars : List Candle} {bar : Candle} {idx cap : ℕ} {long : Bool}
  {entry pct price water : ℚ}

theorem mem_barsBetween (h : bar ∈ barsBetween candles idx cap) : bar ∈ candles :=
  List.mem_of_mem_drop (List.mem_of_mem_take h)

theorem barAt_mem {j : ℕ} (hj : j < candles.length) : barAt candles j ∈ candles := by
  rw [barAt, List.getD_eq_getElem _ _ hj]
  exact List.getElem_mem hj

theorem InRange.pos (h : InRange bars price) (hbars : ∀ bar ∈ bars, WellFormed bar) :
    0 < price := by
  obtain ⟨⟨bar, hbar, hlow⟩, -⟩ := h
  exact (hbars bar hbar).low_pos.trans_le hlow

theorem InRange.behind (h : InRange bars price) : Behind long bars price := by
  cases long with
  | true => simpa [Behind] using h.2
  | false => simpa [Behind] using h.1

/-- Any price inside a bar of the window. -/
theorem inRange_of_mem (hbar : bar ∈ bars) (hlow : bar.low ≤ price) (hhigh : price ≤ bar.high) :
    InRange bars price := ⟨⟨bar, hbar, hlow⟩, bar, hbar, hhigh⟩

/-- A level on the losing side of a price is behind it. -/
theorem Behind.level (h : Behind long bars water) (hwater : 0 ≤ water)
    (hlevel : level water pct (!long) = some price) : Behind long bars price := by
  obtain ⟨bar, hbar, hreach⟩ := h
  refine ⟨bar, hbar, ?_⟩
  simp only [Simulation.level] at hlevel
  split_ifs at hlevel with hpct hup
  · obtain rfl := Option.some.inj hlevel
    obtain rfl : long = false := by simpa using hup
    have hmove : 0 ≤ water * (pct / 100) := mul_nonneg hwater (by linarith [not_le.1 hpct])
    simp only [Bool.false_eq_true, if_false] at hreach ⊢
    linarith
  · obtain rfl := Option.some.inj hlevel
    obtain rfl : long = true := by simpa using hup
    have hmove : 0 ≤ water * (pct / 100) := mul_nonneg hwater (by linarith [not_le.1 hpct])
    simp only [if_true] at hreach ⊢
    linarith

/-- A touched stop is in the range when it is behind it. -/
theorem stop_inRange {stop : Option ℚ} (hbar : bar ∈ bars)
    (hbehind : ∀ p, stop = some p → Behind long bars p)
    (h : stop.filter (stopTouched long bar) = some price) : InRange bars price := by
  obtain ⟨hstop, htouch⟩ := Option.filter_eq_some_iff.1 h
  obtain ⟨other, hother, hreach⟩ := hbehind price hstop
  cases long with
  | true => exact ⟨⟨bar, hbar, by simpa [stopTouched] using htouch⟩, other, hother, hreach⟩
  | false => exact ⟨⟨other, hother, hreach⟩, bar, hbar, by simpa [stopTouched] using htouch⟩

/-- A touched take-profit is in the range when the entry is. -/
theorem take_inRange (hbar : bar ∈ bars) (hentry : InRange bars entry) (hpos : 0 < entry)
    (h : (level entry pct long).filter (takeTouched long bar) = some price) :
    InRange bars price := by
  obtain ⟨htake, htouch⟩ := Option.filter_eq_some_iff.1 h
  -- On the other side a take-profit lies behind the entry, as a stop of the other side does.
  have hbehind : Behind (!long) bars price :=
    hentry.behind.level hpos.le (by rwa [Bool.not_not])
  obtain ⟨other, hother, hreach⟩ := hbehind
  cases long with
  | true => exact ⟨⟨other, hother, hreach⟩, bar, hbar, by simpa [takeTouched] using htouch⟩
  | false => exact ⟨⟨bar, hbar, by simpa [takeTouched] using htouch⟩, other, hother, hreach⟩

theorem barAt_mem_barsBetween {j : ℕ} (hj : idx ≤ j) (hcap : j ≤ cap) (hlen : cap < candles.length) :
    barAt candles j ∈ barsBetween candles idx cap := by
  have hget := barsBetween_getElem? hlen (by omega : idx + (j - idx) ≤ cap)
  rw [Nat.add_sub_cancel' hj] at hget
  exact List.mem_of_getElem? hget

end

/-! ## The scans -/

section
variable {candles : List Candle} {idx cap : ℕ} {long : Bool} {entry : ℚ}

/-- The exit of a scan is in the range when every exit inside a bar is. -/
theorem exitOf_inRange {σ : Type} {S : Scanner σ Candle (ℚ × Outcome)} {s : σ}
    (hbars : ∀ bar ∈ candles, WellFormed bar) (hidx : idx ≤ cap) (hcap : cap < candles.length)
    (hexit : ∀ k, ∀ bar ∈ barsBetween candles idx cap, ∀ e,
      S.exit? (S.stateAt s (barsBetween candles idx cap) k) bar = some e →
        InRange (barsBetween candles idx cap) e.1) :
    InRange (barsBetween candles idx cap)
      (exitOf candles idx cap (S.run s (barsBetween candles idx cap))).price := by
  cases hrun : S.run s (barsBetween candles idx cap) with
  | none =>
    have hlast := barAt_mem_barsBetween hidx le_rfl hcap
    have hbar := hbars _ (mem_barsBetween hlast)
    exact inRange_of_mem hlast hbar.low_le_close hbar.close_le_high
  | some r =>
    obtain ⟨k, e⟩ := r
    obtain ⟨-, bar, hbar, he⟩ := (S.run_eq_some).1 hrun
    exact hexit k bar (List.mem_of_getElem? hbar) e he

/-- The entry is the open of the first bar of the window. -/
theorem holdingWindow_inRange {holdBars : ℤ} (hbars : ∀ bar ∈ candles, WellFormed bar)
    (hw : holdingWindow candles idx holdBars = some (cap, entry)) :
    InRange (barsBetween candles idx cap) entry := by
  obtain ⟨hidx, hcap, -, -⟩ := holdingWindow_eq_some hw
  have hfirst := barAt_mem_barsBetween le_rfl hidx.le hcap
  have hbar := hbars _ (mem_barsBetween hfirst)
  have hentry : (barAt candles idx).openPrice = entry := by
    simp only [holdingWindow] at hw
    split_ifs at hw
    exact congrArg Prod.snd (Option.some.inj hw)
  exact inRange_of_mem hfirst (hentry ▸ hbar.low_le_open) (hentry ▸ hbar.open_le_high)

section
variable (hbars : ∀ bar ∈ candles, WellFormed bar) (hidx : idx ≤ cap) (hcap : cap < candles.length)
  (hentry : InRange (barsBetween candles idx cap) entry)
include hbars hentry

theorem entry_pos : 0 < entry := hentry.pos fun bar hbar => hbars bar (mem_barsBetween hbar)

/-- Before every bar the stop in force and the best price are behind the range. -/
theorem dynamic_state_behind (rule : ExitRule) (long : Bool) (stopPct : ℚ) (span : ℕ)
    (take : Option ℚ) (k : ℕ) :
    let st := (dynamicScanner rule long entry stopPct span take).stateAt
      { stop := level entry stopPct !long, water := entry } (barsBetween candles idx cap) k
    (0 < st.water ∧ Behind long (barsBetween candles idx cap) st.water) ∧
      ∀ p, st.stop = some p → Behind long (barsBetween candles idx cap) p := by
  set bars := barsBetween candles idx cap
  have hpos : 0 < entry := entry_pos hbars hentry
  have hstart : Behind long bars entry := hentry.behind
  refine Scanner.stateAt_induction (P := fun st : ScanState =>
    (0 < st.water ∧ Behind long bars st.water) ∧ ∀ p, st.stop = some p → Behind long bars p) _
    ⟨⟨hpos, hstart⟩, fun p hp => hstart.level hpos.le hp⟩ ?_ k
  rintro st bar hbar ⟨⟨hwater, hbehind⟩, hstop⟩
  have hwell := hbars bar (mem_barsBetween hbar)
  set water' := if long then max st.water bar.high else min st.water bar.low with hwater'
  have hmoved : 0 < water' ∧ Behind long bars water' := by
    cases long with
    | true =>
      rcases max_choice st.water bar.high with h | h <;> simp only [hwater', if_true, h]
      · exact ⟨hwater, hbehind⟩
      · exact ⟨hwell.high_pos, bar, hbar, le_rfl⟩
    | false =>
      rcases min_choice st.water bar.low with h | h <;>
        simp only [hwater', Bool.false_eq_true, if_false, h]
      · exact ⟨hwater, hbehind⟩
      · exact ⟨hwell.low_pos, bar, hbar, le_rfl⟩
  refine ⟨hmoved, fun p hp => ?_⟩
  simp only [dynamicScanner, ← hwater'] at hp
  cases rule with
  | trailing trailPct =>
    simp only [moveStop] at hp
    cases htrail : level water' trailPct !long with
    | none => exact hstop p (by simpa [htrail] using hp)
    | some trail =>
      have htrailBehind := hmoved.2.level hmoved.1.le htrail
      have hinit : Behind long bars (orTrail (level entry stopPct !long) trail) := by
        unfold orTrail
        cases hinit : truthy (level entry stopPct !long) with
        | none => exact htrailBehind
        | some q => exact hstart.level hpos.le (Option.filter_eq_some_iff.1 hinit).1
      simp only [htrail, Option.some.injEq] at hp
      rw [← hp]
      split_ifs
      · rcases max_choice (orTrail (level entry stopPct !long) trail) trail with h | h <;> rw [h]
        · exact hinit
        · exact htrailBehind
      · rcases min_choice (orTrail (level entry stopPct !long) trail) trail with h | h <;> rw [h]
        · exact hinit
        · exact htrailBehind
  | breakEven beTriggerPct =>
    simp only [moveStop] at hp
    cases htrigger : level entry beTriggerPct long with
    | none => exact hstop p (by simpa [htrigger] using hp)
    | some trigger =>
      simp only [htrigger] at hp
      split_ifs at hp
      · exact (Option.some.inj hp) ▸ hstart
      · exact hstop p hp
      · exact (Option.some.inj hp) ▸ hstart
      · exact hstop p hp
  | timeDecay => exact hstart.level hpos.le hp
  | fixed takePct => exact hstop p hp
  | partialTake tp1Pct tp2Pct => exact hstop p hp

/-- Before every bar of a partial scan the stop is behind the range, and where the first half is
sold its take-profit is inside. -/
theorem partial_state_behind (long : Bool) (stopPct tp1Pct tp2Pct : ℚ) (k : ℕ) :
    let st := (partialScan long entry tp1Pct tp2Pct).stateAt (partialStart entry stopPct long)
      (barsBetween candles idx cap) k
    (∀ p, st.stop = some p → Behind long (barsBetween candles idx cap) p) ∧
      (st.filledFirst = true → ∃ p, level entry tp1Pct long = some p ∧
        InRange (barsBetween candles idx cap) p) := by
  set bars := barsBetween candles idx cap
  have hpos : 0 < entry := entry_pos hbars hentry
  refine Scanner.stateAt_induction (P := fun st : PartialState =>
    (∀ p, st.stop = some p → Behind long bars p) ∧
      (st.filledFirst = true → ∃ p, level entry tp1Pct long = some p ∧ InRange bars p)) _ ?_ ?_ k
  · refine ⟨fun p hp => ?_, fun hfilled => by simp [partialStart] at hfilled⟩
    exact hentry.behind.level hpos.le hp
  · rintro st bar hbar ⟨hstop, hfilled⟩
    simp only [partialScan, partialScanner]
    split_ifs with hfill
    · obtain ⟨p, hp⟩ := Option.isSome_iff_exists.1 hfill.2
      exact ⟨fun q hq => (Option.some.inj hq) ▸ hentry.behind,
        fun _ => ⟨p, (Option.filter_eq_some_iff.1 hp).1, take_inRange hbar hentry hpos hp⟩⟩
    · exact ⟨hstop, hfilled⟩

/-- The first half is sold at its take-profit. -/
theorem firstExit_inRange {stopPct tp1Pct tp2Pct : ℚ}
    (hfilled : ((partialScan long entry tp1Pct tp2Pct).last (partialStart entry stopPct long)
      (barsBetween candles idx cap)).filledFirst = true) :
    InRange (barsBetween candles idx cap) ((level entry tp1Pct long).getD entry) := by
  obtain ⟨k, hlast⟩ := (partialScan long entry tp1Pct tp2Pct).exists_last
    (partialStart entry stopPct long) (barsBetween candles idx cap)
  rw [hlast] at hfilled
  obtain ⟨p, hp, hrange⟩ := (partial_state_behind hbars hentry long stopPct tp1Pct tp2Pct k).2
    hfilled
  rwa [hp]

include hidx hcap

theorem baselineExit_inRange {side : String} {stopPct takePct : ℚ} :
    InRange (barsBetween candles idx cap)
      (baselineExit candles idx cap entry side stopPct takePct).price := by
  have hpos : 0 < entry := entry_pos hbars hentry
  refine exitOf_inRange hbars hidx hcap fun k bar hbar e he => ?_
  simp only [baselineScanner] at he
  have htruthy : ∀ {l : Option ℚ} {p : ℚ}, truthy l = some p → l = some p := fun h =>
    (Option.filter_eq_some_iff.1 h).1
  cases hstop : (truthy (level entry stopPct !isLong side)).filter
      (stopTouched (isLong side) bar) with
  | some p =>
    simp only [hstop, Option.some.injEq] at he
    rw [← he]
    exact stop_inRange hbar (fun q hq => hentry.behind.level hpos.le (htruthy hq)) hstop
  | none =>
    simp only [hstop, Option.map_eq_some_iff] at he
    obtain ⟨p, hp, rfl⟩ := he
    obtain ⟨htake, htouch⟩ := Option.filter_eq_some_iff.1 hp
    exact take_inRange hbar hentry hpos (Option.filter_eq_some_iff.2 ⟨htruthy htake, htouch⟩)

theorem scanDynamicExit_inRange {side : String} {stopPct takePct : ℚ} {rule : ExitRule} :
    InRange (barsBetween candles idx cap)
      (scanDynamicExit candles idx cap entry side stopPct takePct rule).price := by
  refine exitOf_inRange hbars hidx hcap fun k bar hbar e he => ?_
  have hstop := (dynamic_state_behind hbars hentry rule (isLong side) stopPct (max 1 (cap - idx))
    (level entry (scanTakePct rule takePct) (isLong side)) k).2
  set st := (dynamicScanner rule (isLong side) entry stopPct (max 1 (cap - idx))
    (level entry (scanTakePct rule takePct) (isLong side))).stateAt
      { stop := level entry stopPct !isLong side, water := entry } (barsBetween candles idx cap) k
  simp only [dynamicScanner] at he
  cases htouched : st.stop.filter (stopTouched (isLong side) bar) with
  | some p =>
    simp only [htouched, Option.some.injEq] at he
    rw [← he]
    exact stop_inRange hbar hstop htouched
  | none =>
    simp only [htouched, Option.map_eq_some_iff] at he
    obtain ⟨p, hp, rfl⟩ := he
    exact take_inRange hbar hentry (entry_pos hbars hentry) hp

theorem partialExit_inRange {stopPct tp1Pct tp2Pct : ℚ} :
    InRange (barsBetween candles idx cap) (exitOf candles idx cap
      ((partialScan long entry tp1Pct tp2Pct).run (partialStart entry stopPct long)
        (barsBetween candles idx cap))).price := by
  refine exitOf_inRange hbars hidx hcap fun k bar hbar e he => ?_
  have hbehind := (partial_state_behind hbars hentry long stopPct tp1Pct tp2Pct k).1
  set st := (partialScan long entry tp1Pct tp2Pct).stateAt (partialStart entry stopPct long)
    (barsBetween candles idx cap) k
  have hstop : ∀ {o : Outcome},
      (st.stop.filter (stopTouched long bar)).map (fun price => (price, o)) = some e →
        InRange (barsBetween candles idx cap) e.1 := by
    intro o hmap
    obtain ⟨q, hq, rfl⟩ := Option.map_eq_some_iff.1 hmap
    exact stop_inRange hbar hbehind hq
  simp only [partialScan, partialScanner] at he
  split_ifs at he
  · exact hstop he
  · cases htake : (level entry tp2Pct long).filter (takeTouched long bar) with
    | some p =>
      simp only [htake, Option.some.injEq] at he
      rw [← he]
      exact take_inRange hbar hentry (entry_pos hbars hentry) htake
    | none =>
      simp only [htake] at he
      exact hstop he

/-- The exit that the scan of any mode decides. -/
theorem decidedExit_inRange (params : Params) {sig : Signal} (hsig : sig.idx = idx) :
    InRange (barsBetween candles idx cap) (decidedExit candles params sig cap entry).price := by
  subst hsig
  unfold decidedExit
  cases partialTakes params with
  | some takes => exact partialExit_inRange hbars hidx hcap hentry
  | none =>
    dsimp only
    split_ifs
    · exact scanDynamicExit_inRange hbars hidx hcap hentry
    · exact baselineExit_inRange hbars hidx hcap hentry

end
end
end ResearchLab.Simulation
