import Mathlib
import ResearchLab.Foundation.Sorting
import ResearchLab.Providers.History

/-!
# Complete windows

A window is fetched completely where the pages reach every confirmed candle of it.
-/
namespace ResearchLab.Providers
open Foundation

variable {F : Type}

namespace History
variable {py : Python F} {history : History py}

/-! ## One page -/


variable (history) in
/-- A bar that is a row of the history in the window. -/
def Row (start_ts end_ts : ℤ) (raw : RawRow) (bar : Bar F) : Prop :=
  (start_ts ≤ history.stamp raw ∧ history.stamp raw ≤ end_ts) ∧
    normalizeRow py raw (history.stamp raw) = some bar

variable (history) in
/-- What has been collected are rows of the history, each once. -/
structure Holds (collected : List (Bar F)) : Prop where
  ofRow : ∀ bar ∈ collected, ∃ raw ∈ history.rows, normalizeRow py raw (history.stamp raw) = some bar
  nodup : (collected.map Bar.ts).Nodup

variable {start_ts end_ts after : ℤ} {raw : RawRow} {collected : List (Bar F)} {bar : Bar F}

theorem holds_nil : history.Holds [] := ⟨by simp, by simp⟩

theorem mem_collect (h : history.Holds collected) (hraw : raw ∈ history.rows) :
    bar ∈ collect py start_ts end_ts collected raw (history.stamp raw) ↔
      bar ∈ collected ∨ history.Row start_ts end_ts raw bar := by
  rw [collect]
  split_ifs with hnew
  · rw [List.mem_append, Option.mem_toList, Row]
    exact or_congr_right ⟨fun hbar => ⟨hnew.1, hbar⟩, And.right⟩
  · refine ⟨Or.inl, ?_⟩
    rintro (hbar | ⟨hwindow, hbar⟩)
    · exact hbar
    -- a bar of this timestamp is there, and it comes from the same row
    simp only [not_and, not_forall, not_not] at hnew
    obtain ⟨seen, hseen, hts⟩ := hnew hwindow
    obtain ⟨raw', hraw', hseenRow⟩ := h.ofRow seen hseen
    have heq : raw' = raw :=
      stamp_inj hraw' hraw ((normalizeRow_ts hseenRow).symm.trans hts)
    rw [heq, hbar] at hseenRow
    cases hseenRow
    exact hseen

theorem Holds.collect (h : history.Holds collected) (hraw : raw ∈ history.rows) :
    history.Holds (collect py start_ts end_ts collected raw (history.stamp raw)) := by
  constructor
  · intro bar hbar
    rcases (mem_collect h hraw).1 hbar with hbar | hbar
    · exact h.ofRow bar hbar
    · exact ⟨raw, hraw, hbar.2⟩
  · rw [Providers.collect]
    split_ifs with hnew
    · obtain ⟨bar, hbar⟩ := Option.isSome_iff_exists.1 (history.normalized raw hraw)
      rw [hbar, Option.toList_some, List.map_append, List.map_singleton]
      refine h.nodup.append (List.nodup_singleton _) ?_
      rw [List.disjoint_singleton, List.mem_map, normalizeRow_ts hbar]
      rintro ⟨seen, hseen, hts⟩
      exact hnew.2 seen hseen hts
    · exact h.nodup

/-- What the rows of a page leave of the scan. -/
structure Scanned (history : History py) (start_ts end_ts : ℤ) (scan : Scan F) (rows : List RawRow)
    (out : Scan F) : Prop where
  holds : history.Holds out.collected
  mem_collected : ∀ bar, bar ∈ out.collected ↔
    bar ∈ scan.collected ∨
      ∃ raw ∈ rows, isUnconfirmed raw = false ∧ history.Row start_ts end_ts raw bar
  ofNone : out.pageOldest = none → ∀ raw ∈ rows, isUnconfirmed raw = true
  ofSome : ∀ oldest, out.pageOldest = some oldest →
    (scan.pageOldest = some oldest ∨
      ∃ raw ∈ rows, isUnconfirmed raw = false ∧ history.stamp raw = oldest) ∧
    (∀ before, scan.pageOldest = some before → oldest ≤ before) ∧
    ∀ raw ∈ rows, isUnconfirmed raw = false → oldest ≤ history.stamp raw
  started : scan.pageOldest.isSome → out.pageOldest.isSome

variable (start_ts end_ts) in
theorem scanned_foldl {rows : List RawRow} (hrows : ∀ raw ∈ rows, raw ∈ history.rows)
    (scan : Scan F) (h : history.Holds scan.collected) :
    Scanned history start_ts end_ts scan rows (rows.foldl (scanRow py start_ts end_ts) scan) := by
  induction rows generalizing scan with
  | nil =>
    exact
      { holds := h
        mem_collected := by simp
        ofNone := by simp
        ofSome := fun oldest hold => ⟨Or.inl hold, fun before hbefore => by simp_all, by simp⟩
        started := id }
  | cons raw rows ih =>
    have hraw := hrows raw List.mem_cons_self
    have hrest := fun other hother => hrows other (List.mem_cons_of_mem _ hother)
    rw [List.foldl_cons]
    cases hconf : isUnconfirmed raw with
    | true =>
      have hstep : scanRow py start_ts end_ts scan raw = scan := by
        simp [scanRow, history.rowTs_eq raw hraw, hconf]
      rw [hstep]
      have hout := ih hrest scan h
      exact
        { holds := hout.holds
          mem_collected := fun bar => by simp [hout.mem_collected bar, hconf]
          ofNone := fun hnone other hother => by
            rcases List.mem_cons.1 hother with rfl | hother
            · exact hconf
            · exact hout.ofNone hnone other hother
          ofSome := fun oldest hold => by simpa [hconf] using hout.ofSome oldest hold
          started := hout.started }
    | false =>
      let next : Scan F :=
        { pageOldest := some (scan.pageOldest.elim (history.stamp raw)
            fun oldest => min oldest (history.stamp raw))
          collected := collect py start_ts end_ts scan.collected raw (history.stamp raw) }
      have hstep : scanRow py start_ts end_ts scan raw = next := by
        simp [scanRow, history.rowTs_eq raw hraw, hconf, next]
      have hnext : history.Holds next.collected := h.collect hraw
      have hout := ih hrest next hnext
      rw [hstep]
      exact
        { holds := hout.holds
          mem_collected := fun bar => by
            rw [hout.mem_collected bar, mem_collect h hraw]
            simp [hconf, or_assoc]
          ofNone := fun hnone => by
            have := hout.started rfl
            rw [hnone] at this
            cases this
          ofSome := fun oldest hold => by
            obtain ⟨hfrom, hle, hrows⟩ := hout.ofSome oldest hold
            have hle := hle _ rfl
            refine ⟨?_, ?_, ?_⟩
            · rcases hfrom with hfrom | ⟨other, hother, hotherConf, hts⟩
              · cases hscan : scan.pageOldest with
                | none =>
                  simp only [next, hscan, Option.elim_none, Option.some.injEq] at hfrom
                  exact Or.inr ⟨raw, List.mem_cons_self, hconf, hfrom⟩
                | some before =>
                  simp only [next, hscan, Option.elim_some, Option.some.injEq] at hfrom
                  rcases min_choice before (history.stamp raw) with hmin | hmin
                  · exact Or.inl (by rw [← hfrom, hmin])
                  · exact Or.inr ⟨raw, List.mem_cons_self, hconf, by rw [← hfrom, hmin]⟩
              · exact Or.inr ⟨other, List.mem_cons_of_mem _ hother, hotherConf, hts⟩
            · intro before hbefore
              rw [hbefore] at hle
              exact hle.trans (min_le_left _ _)
            · intro other hother hotherConf
              rcases List.mem_cons.1 hother with rfl | hother
              · refine hle.trans ?_
                cases scan.pageOldest with
                | none => exact le_rfl
                | some before => exact min_le_right _ _
              · exact hrows other hother hotherConf
          started := fun _ => hout.started rfl }

end History

/-! ## The transport -/

/-- Every answer of the exchange that reports no error is its newest candles behind the cursor, in
any order. -/
def Transport.Serves {py : Python F} (net : Transport) (history : History py) (instId bar : String) :
    Prop :=
  ∀ page attempt after code data, code = "0" ∨ code = "" →
    net.reply page attempt ⟨instId, bar, after, pageLimit⟩ = .payload code data →
      ∃ rows, data = some rows ∧ rows.Perm (history.newest after)

theorem fetchPage_perm {reply : ℕ → Reply} {newest : List RawRow}
    (hserves : ∀ attempt code data, code = "0" ∨ code = "" →
      reply attempt = .payload code data → ∃ rows, data = some rows ∧ rows.Perm newest) {left attempt : ℕ} {rows : List RawRow}
    (h : fetchPage reply left attempt = .ok rows) : rows.Perm newest := by
  induction left generalizing attempt with
  | zero => simp [fetchPage] at h
  | succ left ih =>
    rw [fetchPage] at h
    cases hreply : attemptRows (reply attempt) with
    | ok answer =>
      simp only [hreply, Except.ok.injEq] at h
      subst h
      cases hr : reply attempt with
      | raised error => simp [attemptRows, hr] at hreply
      | unexpected => simp [attemptRows, hr] at hreply
      | payload code data =>
        simp only [attemptRows, hr] at hreply
        split_ifs at hreply with hcode
        obtain ⟨rows, rfl, hperm⟩ := hserves attempt code data hcode hr
        cases hreply
        exact hperm
    | error error =>
      simp only [hreply] at h
      split_ifs at h with hlast
      exact ih h

/-! ## The pager -/

section
variable {py : Python F} {net : Transport} {history : History py} {provider : Provider}
  {instId bar : String} {start_ts end_ts : ℤ}

/-- The pager collects the candles of the window that its pages reach. -/
theorem fetchPages_spec (hserves : net.Serves history instId bar) {left page : ℕ} {cursor : ℤ}
    {collected bars : List (Bar F)} (h : history.Holds collected)
    (hfetch : fetchPages py net provider instId bar start_ts end_ts left page cursor collected =
      .ok bars) :
    history.Holds bars ∧ ∀ b, b ∈ bars ↔
      b ∈ collected ∨ ∃ raw, history.Reaches left cursor raw ∧ history.Row start_ts end_ts raw b := by
  induction left generalizing page cursor collected with
  | zero =>
    simp only [fetchPages, Except.ok.injEq] at hfetch
    subst hfetch
    refine ⟨h, fun b => ⟨Or.inl, ?_⟩⟩
    rintro (hb | ⟨raw, hreach, -⟩)
    · exact hb
    · cases hreach
  | succ left ih =>
    rw [fetchPages] at hfetch
    split_ifs at hfetch with hlate
    cases hpage : fetchPage (fun attempt => net.reply page attempt ⟨instId, bar, cursor, pageLimit⟩)
        provider.retryAttempts 0 with
    | error error => simp [hpage] at hfetch
    | ok rows =>
      have hperm : rows.Perm (history.newest cursor) :=
        fetchPage_perm (fun attempt code data => hserves page attempt cursor code data) hpage
      have hrows : ∀ raw ∈ rows, raw ∈ history.rows := fun raw hraw =>
        (History.mem_newest.1 (hperm.mem_iff.1 hraw)).1
      simp only [hpage] at hfetch
      split_ifs at hfetch with hempty
      · cases hfetch
        subst hempty
        refine ⟨h, fun b => ⟨Or.inl, ?_⟩⟩
        rintro (hb | ⟨raw, hreach, -⟩)
        · exact hb
        · have hnil : history.newest cursor = [] := hperm.symm.eq_nil
          cases hreach with
          | page hmem => simp [hnil] at hmem
          | hop hmem => simp [hnil] at hmem
      · have hscan := History.scanned_foldl start_ts end_ts hrows ⟨none, collected⟩ h
        generalize rows.foldl (scanRow py start_ts end_ts) ⟨none, collected⟩ = scan at hfetch hscan
        have honPage : ∀ raw, raw ∈ rows ↔ raw ∈ history.newest cursor := fun raw => hperm.mem_iff
        cases hold : scan.pageOldest with
        | none =>
          simp only [hold, Except.ok.injEq] at hfetch
          subst hfetch
          refine ⟨hscan.holds, fun b => ?_⟩
          rw [hscan.mem_collected b]
          have hnone := hscan.ofNone hold
          refine or_congr_right ⟨?_, ?_⟩
          · rintro ⟨raw, hraw, hconf, -⟩
            rw [hnone raw hraw] at hconf
            cases hconf
          · rintro ⟨raw, hreach, -⟩
            cases hreach with
            | page hmem hconf =>
              rw [hnone raw ((honPage raw).2 hmem)] at hconf
              cases hconf
            | hop hmem hconf =>
              rw [hnone _ ((honPage _).2 hmem)] at hconf
              cases hconf
        | some oldest =>
          simp only [hold] at hfetch
          obtain ⟨hfrom, -, hleast⟩ := hscan.ofSome oldest hold
          obtain ⟨last, hlast, hlastConf, rfl⟩ := hfrom.resolve_left (by simp)
          have hsucc : ∀ raw, history.Reaches (left + 1) cursor raw ↔
              raw ∈ history.newest cursor ∧ isUnconfirmed raw = false ∨
                history.Reaches left (history.stamp last) raw := fun raw =>
            History.reaches_succ ((honPage last).1 hlast) hlastConf fun other hother =>
              hleast other ((honPage other).2 hother)
          by_cases hstop : history.stamp last ≤ start_ts ∨ rows.length < pageLimit
          · rw [if_pos hstop, Except.ok.injEq] at hfetch
            subst hfetch
            refine ⟨hscan.holds, fun b => ?_⟩
            rw [hscan.mem_collected b]
            refine or_congr_right ⟨?_, ?_⟩
            · rintro ⟨raw, hraw, hconf, hrow⟩
              exact ⟨raw, .page ((honPage raw).1 hraw) hconf, hrow⟩
            · rintro ⟨raw, hreach, hrow⟩
              rcases (hsucc raw).1 hreach with ⟨hmem, hconf⟩ | hbehind
              · exact ⟨raw, (honPage raw).2 hmem, hconf, hrow⟩
              -- nothing of the window lies behind the last page
              · obtain ⟨hraw, hconf, hlt⟩ := hbehind.spec
                rcases hstop with hstart | hshort
                · exact absurd hrow.1.1 (not_le.2 (hlt.trans_le hstart))
                · have hcursor := (History.mem_newest.1 ((honPage last).1 hlast)).2.1
                  refine ⟨raw, (honPage raw).2 ?_, hconf, hrow⟩
                  exact History.mem_newest_of_short (hperm.length_eq ▸ hshort) hraw
                    (hlt.trans hcursor)
          · rw [if_neg hstop] at hfetch
            obtain ⟨hholds, hmem⟩ := ih hscan.holds hfetch
            refine ⟨hholds, fun b => ?_⟩
            rw [hmem b, hscan.mem_collected b, or_assoc]
            refine or_congr_right ⟨?_, ?_⟩
            · rintro (⟨raw, hraw, hconf, hrow⟩ | ⟨raw, hreach, hrow⟩)
              · exact ⟨raw, .page ((honPage raw).1 hraw) hconf, hrow⟩
              · exact ⟨raw, (hsucc raw).2 (Or.inr hreach), hrow⟩
            · rintro ⟨raw, hreach, hrow⟩
              rcases (hsucc raw).1 hreach with ⟨hpage, hconf⟩ | hbehind
              · exact Or.inl ⟨raw, (honPage raw).2 hpage, hconf, hrow⟩
              · exact Or.inr ⟨raw, hbehind, hrow⟩

/-! ## Complete windows -/

namespace History
variable {raw : RawRow} {b : Bar F}

theorem mem_window : b ∈ history.window start_ts end_ts ↔
    ∃ raw ∈ history.rows, isUnconfirmed raw = false ∧ history.Row start_ts end_ts raw b := by
  simp only [window, List.mem_filterMap, List.mem_filter, List.mem_reverse, Row]
  constructor
  · rintro ⟨raw, ⟨hraw, hkept⟩, hb⟩
    simp only [Bool.and_eq_true, Bool.not_eq_true', decide_eq_true_eq] at hkept
    exact ⟨raw, hraw, hkept.1, hkept.2, hb⟩
  · rintro ⟨raw, hraw, hconf, hwindow, hb⟩
    exact ⟨raw, ⟨hraw, by simp [hconf, hwindow]⟩, hb⟩

theorem window_ascending : (history.window start_ts end_ts).Pairwise fun a b => a.ts < b.ts := by
  rw [window]
  have hrows := List.pairwise_reverse.2 history.newestFirst
  refine List.Pairwise.filterMap _ ?_ (hrows.filter _)
  intro raw raw' hlt b hb b' hb'
  rw [normalizeRow_ts hb, normalizeRow_ts hb']
  exact hlt

/-- The rows behind two equal bars are the same. -/
theorem row_unique {raw' : RawRow} (h : raw ∈ history.rows) (h' : raw' ∈ history.rows)
    (hrow : history.Row start_ts end_ts raw b) (hrow' : history.Row start_ts end_ts raw' b) :
    raw = raw' :=
  stamp_inj h h' ((normalizeRow_ts hrow.2).symm.trans (normalizeRow_ts hrow'.2))

end History

theorem resolveTimeframe_pos {timeframe okxBar : String} {intervalMs : ℤ}
    (h : resolveTimeframe py timeframe = .ok (okxBar, intervalMs)) : 0 < intervalMs := by
  rw [resolveTimeframe] at h
  cases hentry : supportedTimeframes.find? fun entry => entry.1 = py.timeframeKey timeframe with
  | none => simp [hentry] at h
  | some entry =>
    simp only [hentry, Except.ok.injEq] at h
    have hall : ∀ entry ∈ supportedTimeframes, 0 < entry.2.2 := by decide
    have := hall entry (List.mem_of_find?_eq_some hentry)
    rwa [h] at this

theorem fetchOhlcv_eq_ok {symbol timeframe okxBar : String} {intervalMs : ℤ} {bars : List (Bar F)}
    (htimeframe : resolveTimeframe py timeframe = .ok (okxBar, intervalMs))
    (h : fetchOhlcv py net provider symbol timeframe start_ts end_ts = .ok bars) :
    start_ts ≤ end_ts ∧
      (end_ts - start_ts) / intervalMs + 1 ≤ min maxWindowBars (provider.maxPages * pageLimit) ∧
      ∃ collected, fetchPages py net provider (py.instId symbol) okxBar start_ts end_ts
        provider.maxPages 0 (end_ts + intervalMs) [] = .ok collected ∧
        bars = sortOn Bar.ts collected := by
  simp only [fetchOhlcv, htimeframe] at h
  split at h
  · cases h
  split at h
  · cases h
  rename_i horder hcapacity
  refine ⟨not_lt.1 horder, not_lt.1 hcapacity, ?_⟩
  split at h
  · cases h
  · rename_i collected hpages
    exact ⟨collected, hpages, (Except.ok.inj h).symm⟩

/-- A window that is returned is complete exactly if the pages reach every confirmed candle of it. -/
theorem window_complete_iff {symbol timeframe okxBar : String} {intervalMs : ℤ} {bars : List (Bar F)}
    (htimeframe : resolveTimeframe py timeframe = .ok (okxBar, intervalMs))
    (hserves : net.Serves history (py.instId symbol) okxBar)
    (h : fetchOhlcv py net provider symbol timeframe start_ts end_ts = .ok bars) :
    bars = history.window start_ts end_ts ↔
      history.WindowReached provider intervalMs start_ts end_ts := by
  obtain ⟨-, -, collected, hpages, rfl⟩ := fetchOhlcv_eq_ok htimeframe h
  obtain ⟨hholds, hmem⟩ := fetchPages_spec hserves History.holds_nil hpages
  simp only [List.not_mem_nil, false_or] at hmem
  constructor
  · intro heq raw hraw hconf hstart hend
    obtain ⟨b, hb⟩ := Option.isSome_iff_exists.1 (history.normalized raw hraw)
    have hrow : history.Row start_ts end_ts raw b := ⟨⟨hstart, hend⟩, hb⟩
    have hwindow : b ∈ sortOn Bar.ts collected := by
      rw [heq, History.mem_window]
      exact ⟨raw, hraw, hconf, hrow⟩
    obtain ⟨raw', hreach, hrow'⟩ := (hmem b).1 (mem_sortOn.1 hwindow)
    rw [History.row_unique hraw hreach.spec.1 hrow hrow']
    exact hreach
  · intro hreached
    refine eq_of_ascending Bar.ts ?_ History.window_ascending fun b => ?_
    · have hnodup : ((sortOn Bar.ts collected).map Bar.ts).Nodup :=
        ((sortOn_perm Bar.ts collected).map _).nodup_iff.2 hholds.nodup
      refine ((sortOn_pairwise Bar.ts collected).and (List.pairwise_map.1 hnodup)).imp ?_
      exact fun hlt => lt_of_le_of_ne hlt.1 hlt.2
    · rw [mem_sortOn, hmem, History.mem_window]
      constructor
      · rintro ⟨raw, hreach, hrow⟩
        exact ⟨raw, hreach.spec.1, hreach.spec.2.1, hrow⟩
      · rintro ⟨raw, hraw, hconf, hrow⟩
        exact ⟨raw, hreached raw hraw hconf hrow.1.1 hrow.1.2, hrow⟩

/-- A window whose length is a multiple of the interval is complete whenever it is accepted. -/
theorem whole_window_complete {symbol timeframe okxBar : String} {intervalMs : ℤ}
    {bars : List (Bar F)} (htimeframe : resolveTimeframe py timeframe = .ok (okxBar, intervalMs))
    (hserves : net.Serves history (py.instId symbol) okxBar) (hconfirmed : history.Confirmed)
    (hspaced : history.Spaced intervalMs) (hwhole : intervalMs ∣ end_ts - start_ts)
    (h : fetchOhlcv py net provider symbol timeframe start_ts end_ts = .ok bars) :
    bars = history.window start_ts end_ts := by
  have hpos := resolveTimeframe_pos htimeframe
  obtain ⟨-, hcapacity, -⟩ := fetchOhlcv_eq_ok htimeframe h
  refine (window_complete_iff htimeframe hserves h).2 ((hconfirmed.windowReached_iff hpos).2 ?_)
  intro raw hraw hstart hend
  have hcount := hspaced.newer_mul_lt hraw (by omega : history.stamp raw < end_ts + intervalMs)
  obtain ⟨whole, hlength⟩ := hwhole
  rw [hlength, Int.mul_ediv_cancel_left _ hpos.ne'] at hcapacity
  have hbars : (history.newer raw (end_ts + intervalMs) : ℤ) < whole + 1 := by
    have : (history.newer raw (end_ts + intervalMs) : ℤ) * intervalMs < (whole + 1) * intervalMs := by
      linarith
    exact lt_of_mul_lt_mul_right this hpos.le
  have hpages : whole + 1 ≤ (provider.maxPages * pageLimit : ℕ) :=
    hcapacity.trans (by exact_mod_cast min_le_right _ _)
  exact_mod_cast hbars.trans_le hpages
end

/-! ## The last page -/

section
variable {py : Python F} {net : Transport} {provider : Provider} {start_ts end_ts : ℤ}

/-- A transport that always answers in time. -/
structure Transport.Answers (net : Transport) : Prop where
  inTime : ∀ page, net.late page = false
  answers : ∀ page attempt request, ∃ rows, net.reply page attempt request = .payload "0" (some rows)

variable (py provider start_ts end_ts) in
theorem Transport.Answers.fetchPages (h : net.Answers) (hattempts : 0 < provider.retryAttempts)
    (instId bar : String) (left page : ℕ) (cursor : ℤ) (collected : List (Bar F)) :
    ∃ bars, fetchPages py net provider instId bar start_ts end_ts left page cursor collected =
      .ok bars := by
  induction left generalizing page cursor collected with
  | zero => exact ⟨collected, rfl⟩
  | succ left ih =>
    obtain ⟨rows, hrows⟩ := h.answers page 0 ⟨instId, bar, cursor, pageLimit⟩
    obtain ⟨attempts, hattempts⟩ := Nat.exists_eq_succ_of_ne_zero hattempts.ne'
    have hpage : fetchPage (fun attempt => net.reply page attempt ⟨instId, bar, cursor, pageLimit⟩)
        provider.retryAttempts 0 = .ok rows := by
      simp [hattempts, fetchPage, hrows, attemptRows]
    rw [Providers.fetchPages, h.inTime page, if_neg Bool.false_ne_true]
    simp only [hpage]
    split
    · exact ⟨_, rfl⟩
    split
    · exact ⟨_, rfl⟩
    split
    · exact ⟨_, rfl⟩
    · exact ih _ _ _

end

/-- A number below 100 with two digits. -/
def twoDigits (n : ℕ) : String := if n < 10 then "0" ++ n.repr else n.repr

/-- The language on timestamps of the first day in whole seconds and on integral prices. -/
def firstDay : Python ℤ where
  timeframeKey name := name
  instId symbol := String.ofList (symbol.toList.map fun c => if c = '_' then '-' else c)
  int := String.toInt?
  float := String.toInt?
  isoformat ts :=
    if 0 ≤ ts ∧ ts < 86400000 ∧ ts % 1000 = 0 then
      some ("1970-01-01T" ++ twoDigits (ts.toNat / 3600000) ++ ":" ++
        twoDigits (ts.toNat / 60000 % 60) ++ ":" ++ twoDigits (ts.toNat / 1000 % 60) ++ "+00:00")
    else none

/-- The closed candle of the minute `i` of that day. -/
def minuteRow (i : ℕ) : RawRow :=
  [(60000 * i).repr, (7).repr, (9).repr, (6).repr, (8).repr, (1).repr, "1", "1", "1"]

lemma rowTs_minuteRow (i : ℕ) : rowTs firstDay (minuteRow i) = some (60000 * (i : ℤ)) := by
  change (60000 * i).repr.toInt? = _
  rw [Nat.toInt?_repr, Nat.cast_mul, Nat.cast_ofNat]

def minuteStamp (raw : RawRow) : ℤ := (rowTs firstDay raw).getD 0

@[simp] lemma minuteStamp_minuteRow (i : ℕ) : minuteStamp (minuteRow i) = 60000 * i := by
  rw [minuteStamp, rowTs_minuteRow, Option.getD_some]

/-- The rows of the first five hours and of the minute after them. -/
def minuteRows : List RawRow := (List.range 301).reverse.map minuteRow

lemma mem_minuteRows {raw : RawRow} : raw ∈ minuteRows ↔ ∃ i < 301, minuteRow i = raw := by
  simp only [minuteRows, List.mem_map, List.mem_reverse, List.mem_range]

lemma rowTs_of_mem_minuteRows : ∀ raw ∈ minuteRows, rowTs firstDay raw = some (minuteStamp raw) := by
  intro raw hraw
  obtain ⟨i, -, rfl⟩ := mem_minuteRows.1 hraw
  rw [minuteStamp_minuteRow, rowTs_minuteRow]

lemma normalizeRow_of_mem_minuteRows :
    ∀ raw ∈ minuteRows, (normalizeRow firstDay raw (minuteStamp raw)).isSome := by
  intro raw hraw
  obtain ⟨i, hi, rfl⟩ := mem_minuteRows.1 hraw
  have hday : 0 ≤ 60000 * (i : ℤ) ∧ 60000 * (i : ℤ) < 86400000 ∧ 60000 * (i : ℤ) % 1000 = 0 := by
    omega
  rw [minuteStamp_minuteRow]
  simp only [normalizeRow, minuteRow, firstDay, Option.bind_eq_bind, List.getElem?_cons_zero,
    List.getElem?_cons_succ, Option.bind_some, Nat.toInt?_repr, if_pos hday, Option.pure_def,
    Option.isSome_some]

lemma minuteRows_newestFirst : minuteRows.Pairwise fun a b => minuteStamp b < minuteStamp a := by
  refine List.pairwise_map.2 (List.pairwise_reverse.2 ?_)
  refine List.pairwise_lt_range.imp fun hlt => ?_
  rw [minuteStamp_minuteRow, minuteStamp_minuteRow]
  omega

/-- The first five hours and the minute after them. -/
def minuteHistory : History firstDay where
  rows := minuteRows
  stamp := minuteStamp
  rowTs_eq := rowTs_of_mem_minuteRows
  normalized := normalizeRow_of_mem_minuteRows
  newestFirst := minuteRows_newestFirst

/-- The exchange with this history. -/
def minuteNet : Transport where
  late _ := false
  reply _ _ request := .payload "0" (some (minuteHistory.newest request.after))

theorem minuteNet_serves (instId bar : String) : minuteNet.Serves minuteHistory instId bar := by
  intro page attempt after code data hcode h
  cases h
  exact ⟨_, rfl, List.Perm.refl _⟩

theorem minuteNet_answers : minuteNet.Answers := ⟨fun _ => rfl, fun _ _ _ => ⟨_, rfl⟩⟩

theorem resolveTimeframe_1m : resolveTimeframe firstDay "1m" = .ok ("1m", 60000) := by
  decide +kernel

theorem fetchOhlcv_minutes (end_ts : ℤ) (hpos : 0 ≤ end_ts) (hcapacity : end_ts < 18000000) :
    ∃ bars, fetchOhlcv firstDay minuteNet (Provider.init 1 3) "BTC_USDT_SWAP" "1m" 0 end_ts =
      .ok bars := by
  obtain ⟨collected, hcollected⟩ := minuteNet_answers.fetchPages firstDay
    (Provider.init 1 3) 0 end_ts (by decide) (firstDay.instId "BTC_USDT_SWAP") "1m" (Provider.init 1 3).maxPages 0 (end_ts + 60000) []
  refine ⟨sortOn Bar.ts collected, ?_⟩
  have hbars : ¬(end_ts - 0) / 60000 + 1 > ((min maxWindowBars ((Provider.init 1 3).maxPages *
      pageLimit) : ℕ) : ℤ) := by
    rw [show min maxWindowBars ((Provider.init 1 3).maxPages * pageLimit) = 300 by decide]
    omega
  simp only [fetchOhlcv, resolveTimeframe_1m, if_neg (not_lt.2 hpos), if_neg hbars, hcollected]

/-- A window of the first five hours that ends behind its last candle: `max_pages` pages do not reach
its first candle. -/
theorem unaligned_window_loses_oldest :
    ∃ bars, fetchOhlcv firstDay minuteNet (Provider.init 1 3) "BTC_USDT_SWAP" "1m" 0 17940001 =
        .ok bars ∧
      minuteNet.Serves minuteHistory (firstDay.instId "BTC_USDT_SWAP") "1m" ∧
      bars ≠ minuteHistory.window 0 17940001 := by
  obtain ⟨bars, hbars⟩ := fetchOhlcv_minutes 17940001 (by decide) (by decide)
  refine ⟨bars, hbars, minuteNet_serves _ _, ?_⟩
  rintro rfl
  obtain ⟨-, -, collected, hpages, hsorted⟩ := fetchOhlcv_eq_ok resolveTimeframe_1m hbars
  obtain ⟨-, hmem⟩ := fetchPages_spec (minuteNet_serves _ _) History.holds_nil hpages
  have hzero : minuteRow 0 ∈ minuteHistory.rows :=
    mem_minuteRows.2 ⟨0, by decide, rfl⟩
  obtain ⟨b, hb⟩ := Option.isSome_iff_exists.1 (minuteHistory.normalized _ hzero)
  have hstamp : minuteHistory.stamp (minuteRow 0) = 0 := minuteStamp_minuteRow 0
  have hrow : minuteHistory.Row 0 17940001 (minuteRow 0) b := by
    refine ⟨?_, hb⟩
    rw [hstamp]
    decide
  have hwindow : b ∈ sortOn Bar.ts collected := by
    rw [← hsorted]
    exact History.mem_window.2 ⟨minuteRow 0, hzero, by decide, hrow⟩
  obtain ⟨raw, hreach, hrow'⟩ := ((hmem b).1 (mem_sortOn.1 hwindow)).resolve_left (by simp)
  have hraw := History.row_unique hzero hreach.spec.1 hrow hrow'
  subst hraw
  -- three hundred candles lie before it
  have hnewer := hreach.newer_lt
  have hcount : minuteHistory.newer (minuteRow 0) (17940001 + 60000) = 300 := by
    rw [History.newer, hstamp]
    simp only [minuteHistory, minuteRows, List.countP_map, Function.comp_def, minuteStamp_minuteRow]
    decide +kernel
  rw [hcount] at hnewer
  exact absurd hnewer (by decide)

theorem window_complete_iff_minutes :
    ∃ bars, fetchOhlcv firstDay minuteNet (Provider.init 1 3) "BTC_USDT_SWAP" "1m" 0 17940000 =
        .ok bars ∧
      (bars = minuteHistory.window 0 17940000 ↔
        minuteHistory.WindowReached (Provider.init 1 3) 60000 0 17940000) := by
  obtain ⟨bars, hbars⟩ := fetchOhlcv_minutes 17940000 (by decide) (by decide)
  exact ⟨bars, hbars, window_complete_iff resolveTimeframe_1m (minuteNet_serves _ _) hbars⟩

end ResearchLab.Providers
