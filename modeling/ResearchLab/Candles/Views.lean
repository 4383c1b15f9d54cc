import Mathlib
import ResearchLab.Candles.Snapshot
import ResearchLab.Foundation.Checks
import ResearchLab.Foundation.Ordered

/-!
# The views follow the revision log

A batch only adds revisions to the log; afterwards the current rows are the latest revisions and
the series rows summarise the current rows. Readers therefore agree, and what was available at a
boundary stays as it is.
-/
namespace ResearchLab.Candles
open Foundation Foundation.IntOrder

variable {ν φ : Type} [LinearOrder φ] [Zero φ]

/-! ## What the statements of a batch do -/

section Statements
variable {env : Env} {symbol : String} {timeframe : Timeframe} {log log' : Table String (Revision φ)}

theorem bindInts_eq_ok {l : List ℤ} {u : Unit} (h : bindInts l = .ok u) :
    ∀ n ∈ l, -9223372036854775808 ≤ n ∧ n ≤ 9223372036854775807 := by
  unfold bindInts at h
  split_ifs at h with hl
  exact hl

/-- The revisions that the rows of a batch may add. -/
structure Adds (symbol : String) (timeframe : Timeframe) (rows : List (NormalizedRow φ))
    (r : Revision φ) : Prop where
  row : ∃ n ∈ rows, ∃ parent, r = n.revision symbol timeframe parent
  available : r.available ≤ maxBoundary

theorem Adds.mono {rows rows' : List (NormalizedRow φ)} {r : Revision φ}
    (h : Adds symbol timeframe rows r) (hrows : ∀ n ∈ rows, n ∈ rows') :
    Adds symbol timeframe rows' r := by
  obtain ⟨n, hn, hr⟩ := h.row
  exact ⟨⟨n, hrows n hn, hr⟩, h.available⟩

/-- Every revision stands under its id. -/
def Keyed (log : Table String (Revision φ)) : Prop := ∀ id r, log.row id = some r → r.revisionId = id

/-- A log with further revisions behind the old ones. -/
structure Extends (log log' : Table String (Revision φ)) (new : List (Revision φ)) : Prop where
  toList : log'.toList = log.toList ++ new
  keyed : Keyed log → Keyed log'

theorem Extends.refl (log : Table String (Revision φ)) : Extends log log [] := ⟨by simp, id⟩

theorem Extends.trans {log'' : Table String (Revision φ)} {new new' : List (Revision φ)}
    (h : Extends log log' new) (h' : Extends log' log'' new') :
    Extends log log'' (new ++ new') :=
  ⟨by rw [h'.toList, h.toList, List.append_assoc], fun hk => h'.keyed (h.keyed hk)⟩

theorem appendRevision_spec {n : NormalizedRow φ}
    (h : appendRevision env symbol timeframe log n = .ok log') :
    ∃ new, Extends log log' new ∧ ∀ r ∈ new, Adds symbol timeframe [n] r := by
  unfold appendRevision at h
  obtain ⟨_, -, h⟩ := bind_eq_ok.1 h
  obtain ⟨_, hbind, h⟩ := bind_eq_ok.1 h
  obtain ⟨_, -, h⟩ := bind_eq_ok.1 h
  have havailable : n.times.available ≤ maxBoundary := (bindInts_eq_ok hbind _ (by simp)).2
  obtain rfl := Except.ok.inj h
  cases hrow : log.row n.revisionId with
  | some old =>
    refine ⟨[], ?_, by simp⟩
    rw [Table.insert, dif_neg (by simp [hrow])]
    exact .refl log
  | none =>
    refine ⟨[_], ⟨Table.toList_insert hrow _, fun hkeyed id r hr => ?_⟩, fun r hr => ?_⟩
    · rw [Table.insert_row hrow] at hr
      split_ifs at hr with hid
      · obtain rfl := Option.some.inj hr
        exact hid.symm
      · exact hkeyed id r hr
    · obtain rfl := List.mem_singleton.1 hr
      exact ⟨⟨n, by simp, _, rfl⟩, havailable⟩

theorem appendRevisions_spec {rows : List (NormalizedRow φ)}
    (h : rows.foldlM (appendRevision env symbol timeframe) log = .ok log') :
    ∃ new, Extends log log' new ∧ ∀ r ∈ new, Adds symbol timeframe rows r := by
  induction rows generalizing log with
  | nil =>
    obtain rfl := Except.ok.inj h
    exact ⟨[], .refl log, by simp⟩
  | cons n rows ih =>
    rw [List.foldlM_cons] at h
    obtain ⟨middle, hfirst, hrest⟩ := bind_eq_ok.1 h
    obtain ⟨new, hnew, hadds⟩ := appendRevision_spec hfirst
    obtain ⟨new', hnew', hadds'⟩ := ih hrest
    refine ⟨new ++ new', hnew.trans hnew', fun r hr => ?_⟩
    rcases List.mem_append.1 hr with hr | hr
    · exact (hadds r hr).mono fun m hm => by simp [List.mem_singleton.1 hm]
    · exact (hadds' r hr).mono fun m hm => List.mem_cons_of_mem _ hm

theorem revisionsAt_of_extends {new : List (Revision φ)} (h : Extends log log' new)
    (key : CandleKey) :
    revisionsAt log' key = revisionsAt log key ++ new.filter fun r => r.key = key := by
  rw [revisionsAt, h.toList, List.filter_append]
  rfl

theorem latest_eq_none {key : CandleKey} : latest log key = none ↔ revisionsAt log key = [] :=
  List.argmax_eq_none

theorem projectLatest_spec {candles candles' : Table CandleKey (Candle φ)} {ts : ℤ}
    (h : projectLatest env symbol timeframe log candles ts = .ok candles') (key : CandleKey) :
    candles'.row key = if key = (symbol, timeframe, ts) then
      ((latest log key).map Revision.candle).or (candles.row key) else candles.row key := by
  unfold projectLatest at h
  cases hlatest : latest log (symbol, timeframe, ts) with
  | none =>
    simp only [hlatest] at h
    obtain rfl := Except.ok.inj h
    split_ifs with hkey
    · simp [hkey, hlatest]
    · rfl
  | some r =>
    simp only [hlatest] at h
    obtain ⟨_, -, h⟩ := bind_eq_ok.1 h
    obtain rfl := Except.ok.inj h
    rw [Table.upsert_row]
    split_ifs with hkey
    · simp [hkey, hlatest]
    · rfl

theorem projectAll_spec {candles candles' : Table CandleKey (Candle φ)} {stamps : List ℤ}
    (h : stamps.foldlM (projectLatest env symbol timeframe log) candles = .ok candles')
    (key : CandleKey) :
    candles'.row key = if key.1 = symbol ∧ key.2.1 = timeframe ∧ key.2.2 ∈ stamps then
      ((latest log key).map Revision.candle).or (candles.row key) else candles.row key := by
  induction stamps generalizing candles with
  | nil =>
    obtain rfl := Except.ok.inj h
    simp
  | cons ts stamps ih =>
    rw [List.foldlM_cons] at h
    obtain ⟨middle, hfirst, hrest⟩ := bind_eq_ok.1 h
    obtain ⟨symbol', timeframe', ts'⟩ := key
    rw [ih hrest, projectLatest_spec hfirst]
    simp only [Prod.mk.injEq, List.mem_cons]
    by_cases hhere : symbol' = symbol ∧ timeframe' = timeframe ∧ ts' = ts
    · obtain ⟨rfl, rfl, rfl⟩ := hhere
      cases latest log (symbol', timeframe', ts') <;> simp
    · rw [if_neg hhere]
      refine if_congr ?_ rfl rfl
      constructor
      · rintro ⟨h₁, h₂, h₃⟩
        exact ⟨h₁, h₂, .inr h₃⟩
      · rintro ⟨h₁, h₂, rfl | h₃⟩
        · exact absurd ⟨h₁, h₂, rfl⟩ hhere
        · exact ⟨h₁, h₂, h₃⟩

end Statements

/-! ## Series -/

section Series
variable {candles candles' : Table CandleKey (Candle φ)} {symbol : String} {timeframe : Timeframe}

/-- The timestamps of a series before the query orders them. -/
theorem nodup_stamps : ((candles.keys.filter fun k => k.1 = symbol ∧ k.2.1 = timeframe).map
    fun k => k.2.2).Nodup := by
  refine (candles.nodup.filter _).map_on fun a ha b hb hab => ?_
  simp only [List.mem_filter, decide_eq_true_eq] at ha hb
  exact Prod.ext (ha.2.1.trans hb.2.1.symm) (Prod.ext (ha.2.2.trans hb.2.2.symm) hab)

theorem mem_seriesTs {ts : ℤ} :
    ts ∈ seriesTs candles symbol timeframe ↔ (candles.row (symbol, timeframe, ts)).isSome := by
  rw [seriesTs, mem_sortOn, ← candles.mem_keys]
  simp only [List.mem_map, List.mem_filter, decide_eq_true_eq, Prod.exists]
  constructor
  · rintro ⟨_, _, _, ⟨hk, rfl, rfl⟩, rfl⟩
    exact hk
  · intro hk
    exact ⟨_, _, _, ⟨hk, rfl, rfl⟩, rfl⟩

theorem seriesTs_pairwise : (seriesTs candles symbol timeframe).Pairwise (· < ·) :=
  sortOn_id_pairwise_lt nodup_stamps

theorem seriesTs_congr (h : ∀ ts, candles'.row (symbol, timeframe, ts) =
    candles.row (symbol, timeframe, ts)) :
    seriesTs candles' symbol timeframe = seriesTs candles symbol timeframe := by
  refine sortOn_id_congr nodup_stamps nodup_stamps fun ts => ?_
  have hmem := @mem_seriesTs _ _ _ candles' symbol timeframe ts
  rw [h, ← mem_seriesTs, seriesTs, seriesTs, mem_sortOn, mem_sortOn] at hmem
  exact hmem

/-- A series row that was computed from these candles. -/
structure SeriesRow.Computed (row : SeriesRow) (candles : Table CandleKey (Candle φ))
    (symbol : String) (timeframe : Timeframe) : Prop where
  firstTs : row.firstTs = (seriesTs candles symbol timeframe).head?
  lastTs : row.lastTs = (seriesTs candles symbol timeframe).getLast?
  rowCount : row.rowCount = (seriesTs candles symbol timeframe).length
  gapCount : row.gapCount = Candles.gapCount timeframe.ms (seriesTs candles symbol timeframe)

/-- What a series row says about the candles of its series. -/
structure SeriesRow.Summarises (row : SeriesRow) (candles : Table CandleKey (Candle φ))
    (symbol : String) (timeframe : Timeframe) : Prop where
  first : ∀ ts, row.firstTs = some ts →
    IsLeast {t | (candles.row (symbol, timeframe, t)).isSome} ts
  last : ∀ ts, row.lastTs = some ts →
    IsGreatest {t | (candles.row (symbol, timeframe, t)).isSome} ts
  empty : row.firstTs = none ∨ row.lastTs = none →
    ∀ t, candles.row (symbol, timeframe, t) = none
  count : row.rowCount = {t | (candles.row (symbol, timeframe, t)).isSome}.ncard
  gaps : row.gapCount = {t | (candles.row (symbol, timeframe, t)).isSome ∧
    ∃ p, (candles.row (symbol, timeframe, p)).isSome ∧ timeframe.ms < t - p ∧
      ∀ q, p < q → q < t → candles.row (symbol, timeframe, q) = none}.ncard

theorem Timeframe.ms_pos (timeframe : Timeframe) : 0 < timeframe.ms := by
  cases timeframe <;> decide

theorem SeriesRow.Computed.summarises {row : SeriesRow}
    (h : row.Computed candles symbol timeframe) : row.Summarises candles symbol timeframe := by
  have hset : {t | (candles.row (symbol, timeframe, t)).isSome} =
      {t | t ∈ seriesTs candles symbol timeframe} := by
    ext t
    exact mem_seriesTs.symm
  have hasc := @seriesTs_pairwise _ _ _ candles symbol timeframe
  constructor
  · intro ts hts
    rw [hset]
    exact isLeast_of_head? hasc (h.firstTs.symm.trans hts)
  · intro ts hts
    rw [hset]
    exact isGreatest_of_getLast? hasc (h.lastTs.symm.trans hts)
  · rw [h.firstTs, h.lastTs, List.head?_eq_none_iff, List.getLast?_eq_none_iff, or_self]
    intro hnil t
    have ht : t ∉ seriesTs candles symbol timeframe := by simp [hnil]
    simpa [mem_seriesTs] using ht
  · rw [h.rowCount, hset, ncard_eq_length hasc]
  · rw [h.gapCount, Candles.gapCount, ← ncard_gaps hasc]
    congr 1
    ext t
    constructor
    · rintro ⟨p, ⟨hp, ht, hlt, hmax⟩, hgap⟩
      refine ⟨mem_seriesTs.1 ht, p, mem_seriesTs.1 hp, hgap, fun q hpq hqt => ?_⟩
      by_contra hq
      have := hmax q (mem_seriesTs.2 (Option.isSome_iff_ne_none.2 hq)) hqt
      omega
    · rintro ⟨ht, p, hp, hgap, hnone⟩
      have := timeframe.ms_pos
      refine ⟨p, ⟨mem_seriesTs.2 hp, mem_seriesTs.2 ht, by omega, fun q hq hqt => ?_⟩, hgap⟩
      by_contra hpq
      rw [mem_seriesTs, hnone q (by omega) hqt] at hq
      exact absurd hq (by simp)

end Series

/-! ## The invariant -/

section Invariant

structure Inv (s : Store φ) : Prop where
  keyed : Keyed s.tables.revisions
  available : ∀ r ∈ s.tables.revisions.toList, r.available ≤ maxBoundary
  current : ∀ key, s.tables.candles.row key =
    (latest s.tables.revisions key).map Revision.candle
  series : ∀ symbol timeframe row, s.tables.series.row (symbol, timeframe) = some row →
    row.Computed s.tables.candles symbol timeframe
  listed : ∀ key, (s.tables.candles.row key).isSome →
    (s.tables.series.row (key.1, key.2.1)).isSome
  absent : s.present = false → s.tables = .empty

theorem Inv.init {s : Store φ} (h : s.tables = .empty) : Inv s := by
  constructor <;> simp [h, Tables.empty, Keyed, Table.toList, latest, revisionsAt, Table.empty]

theorem refreshSeries_spec {env : Env} {symbol source : String} {timeframe : Timeframe} {now : ℤ}
    {tables tables' : Tables φ} {coverage : Coverage}
    (h : refreshSeries env symbol timeframe source now tables = .ok (tables', coverage)) :
    tables'.revisions = tables.revisions ∧ tables'.candles = tables.candles ∧
      ∃ row : SeriesRow, row.Computed tables.candles symbol timeframe ∧
        ∀ key, tables'.series.row key =
          if key = (symbol, timeframe) then some row else tables.series.row key := by
  unfold refreshSeries at h
  obtain ⟨_, -, h⟩ := bind_eq_ok.1 h
  obtain ⟨_, -, h⟩ := bind_eq_ok.1 h
  obtain ⟨rfl, -⟩ := Prod.mk.inj (Except.ok.inj h)
  exact ⟨rfl, rfl, _, ⟨rfl, rfl, rfl, rfl⟩, fun key => Table.upsert_row _ _ _ _⟩

/-- What a committed batch does to the tables. -/
theorem write_spec {env : Env} {source : String} {p : Prepared φ} {tables tables' : Tables φ}
    {coverage : Coverage} (h : write env source p tables = .ok (tables', coverage)) :
    (∃ new, Extends tables.revisions tables'.revisions new ∧
      ∀ r ∈ new, Adds p.symbol p.timeframe p.rows r) ∧
    (∀ key, tables'.candles.row key =
      if key.1 = p.symbol ∧ key.2.1 = p.timeframe ∧ key.2.2 ∈ p.acceptedTs then
        ((latest tables'.revisions key).map Revision.candle).or (tables.candles.row key)
      else tables.candles.row key) ∧
    ∃ row : SeriesRow, row.Computed tables'.candles p.symbol p.timeframe ∧
      ∀ key, tables'.series.row key =
        if key = (p.symbol, p.timeframe) then some row else tables.series.row key := by
  unfold write at h
  obtain ⟨log, hlog, h⟩ := bind_eq_ok.1 h
  obtain ⟨candles, hcandles, h⟩ := bind_eq_ok.1 h
  obtain ⟨result, hseries, h⟩ := bind_eq_ok.1 h
  obtain ⟨_, -, h⟩ := bind_eq_ok.1 h
  obtain rfl := Except.ok.inj h
  obtain ⟨hrevisions, hcandles', row, hrow, hseries'⟩ := refreshSeries_spec hseries
  simp only at hrevisions hcandles' hrow hseries'
  rw [hrevisions, hcandles']
  exact ⟨appendRevisions_spec hlog, projectAll_spec hcandles, row, hrow, hseries'⟩

theorem Prepared.mem_acceptedTs {p : Prepared φ} {n : NormalizedRow φ} (h : n ∈ p.rows) :
    n.clean.ts ∈ p.acceptedTs := by
  rw [Prepared.acceptedTs, mem_sortOn, List.mem_dedup]
  exact List.mem_map_of_mem h

theorem Adds.key {symbol : String} {timeframe : Timeframe} {p : Prepared φ} {r : Revision φ}
    (h : Adds symbol timeframe p.rows r) :
    r.key.1 = symbol ∧ r.key.2.1 = timeframe ∧ r.key.2.2 ∈ p.acceptedTs := by
  obtain ⟨n, hn, parent, rfl⟩ := h.row
  exact ⟨rfl, rfl, Prepared.mem_acceptedTs hn⟩

theorem Inv.write {s : Store φ} {env : Env} {source : String} {p : Prepared φ}
    {tables : Tables φ} {coverage : Coverage} (h : Inv s)
    (hwrite : write env source p s.tables = .ok (tables, coverage)) : Inv ⟨true, tables⟩ := by
  obtain ⟨⟨new, hextends, hadds⟩, hcandles, row, hrow, hseries⟩ := write_spec hwrite
  -- the current rows follow the log, also where the batch left them alone
  have hcurrent : ∀ key, tables.candles.row key =
      (latest tables.revisions key).map Revision.candle := by
    intro key
    rw [hcandles]
    split_ifs with hkey
    · cases hlatest : latest tables.revisions key with
      | some r => rfl
      | none =>
        rw [latest_eq_none, revisionsAt_of_extends hextends, List.append_eq_nil_iff] at hlatest
        simp [h.current, latest_eq_none.2 hlatest.1]
    · rw [h.current, latest, latest, revisionsAt_of_extends hextends,
        List.filter_eq_nil_iff.2, List.append_nil]
      intro r hr hrkey
      rw [decide_eq_true_eq] at hrkey
      exact hkey (hrkey ▸ (hadds r hr).key)
  have hother : ∀ symbol timeframe, (symbol, timeframe) ≠ (p.symbol, p.timeframe) → ∀ ts,
      tables.candles.row (symbol, timeframe, ts) = s.tables.candles.row (symbol, timeframe, ts) := by
    intro symbol timeframe hne ts
    rw [hcandles, if_neg]
    rintro ⟨rfl, rfl, -⟩
    exact hne rfl
  constructor
  · exact hextends.keyed h.keyed
  · intro r hr
    rw [hextends.toList] at hr
    rcases List.mem_append.1 hr with hr | hr
    · exact h.available r hr
    · exact (hadds r hr).available
  · exact hcurrent
  · intro symbol timeframe row' hrow'
    simp only [hseries] at hrow'
    split_ifs at hrow' with hkey
    · obtain ⟨rfl, rfl⟩ := Prod.mk.inj hkey
      obtain rfl := Option.some.inj hrow'
      exact hrow
    · have hold := h.series symbol timeframe row' hrow'
      have hstamps := seriesTs_congr (hother symbol timeframe hkey)
      constructor <;> simp only [hstamps]
      exacts [hold.firstTs, hold.lastTs, hold.rowCount, hold.gapCount]
  · rintro ⟨symbol, timeframe, ts⟩ hts
    simp only [hseries]
    split_ifs with hkey
    · rfl
    · rw [hother symbol timeframe hkey ts] at hts
      exact h.listed (symbol, timeframe, ts) hts
  · exact fun hfalse => absurd hfalse (by simp)

/-- A call that raises leaves the tables alone, and one that returns commits a whole batch. -/
theorem upsertCandles_cases (py : Python ν φ) (env : Env) (batch : Batch ν) (s : Store φ) :
    (∃ e, (upsertCandles py env batch s).1 = .error e ∧
      (upsertCandles py env batch s).2.tables = s.tables ∧
      (s.present = true → (upsertCandles py env batch s).2.present = true)) ∨
    ∃ p tables coverage result, prepare py env batch = .ok p ∧
      write env batch.source p s.tables = .ok (tables, coverage) ∧
      upsertCandles py env batch s = (.ok result, ⟨true, tables⟩) := by
  unfold upsertCandles
  cases hp : prepare py env batch with
  | error e => exact .inl ⟨e, rfl, rfl, id⟩
  | ok p =>
    cases hinit : env.execute .initializeStore with
    | error e => exact .inl ⟨e, rfl, rfl, id⟩
    | ok _ =>
      cases hwrite : Candles.write env batch.source p s.tables with
      | error e => exact .inl ⟨e, by simp [hwrite], by simp [hwrite], by simp [hwrite]⟩
      | ok result => exact .inr ⟨p, result.1, result.2, _, rfl, by simp [hwrite], by simp [hwrite]; rfl⟩

theorem Inv.step {py : Python ν φ} {s : Store φ} (h : Inv s) (env : Env) (batch : Batch ν) :
    Inv (upsertCandles py env batch s).2 := by
  rcases upsertCandles_cases py env batch s with ⟨e, -, htables, hpresent⟩ |
    ⟨p, tables, coverage, result, -, hwrite, hstep⟩
  · constructor <;> rw [htables]
    · exact h.keyed
    · exact h.available
    · exact h.current
    · exact h.series
    · exact h.listed
    · intro habsent
      refine h.absent ?_
      by_contra hs
      rw [hpresent (by simpa using hs)] at habsent
      exact absurd habsent (by simp)
  · rw [hstep]
    exact h.write hwrite

theorem inv_of_reachable {py : Python ν φ} {s : Store φ} (hs : (candleStore py).Reachable s) :
    Inv s :=
  hs.invariant (fun _ => .init) fun _ _ _ h _ => h.step _ _

end Invariant

/-! ## Readers -/

section Readers
variable {log log' : Table String (Revision φ)} {c : CheckedArgs} {boundary : ℤ}

/-- A search that finds for every item something that names it. -/
theorem map_filterMap_eq_self {α β : Type} {f : α → Option β} {g : β → α} {l : List α}
    (h : ∀ a ∈ l, ∃ b, f a = some b ∧ g b = a) : (l.filterMap f).map g = l := by
  induction l with
  | nil => rfl
  | cons a l ih =>
    obtain ⟨b, hb, hg⟩ := h a List.mem_cons_self
    rw [List.filterMap_cons_some hb, List.map_cons, hg,
      ih fun a' ha' => h a' (List.mem_cons_of_mem _ ha')]

theorem mem_visibleRevisions {r : Revision φ} : r ∈ visibleRevisions log c boundary ↔
    r ∈ log.toList ∧ r.symbol = c.symbol ∧ r.timeframe = c.timeframe ∧ c.startTs ≤ r.ts ∧
      r.ts ≤ c.endTs ∧ r.available ≤ boundary := by
  simp only [visibleRevisions, List.mem_filter, decide_eq_true_eq]

theorem mem_revisionsAt {key : CandleKey} {r : Revision φ} :
    r ∈ revisionsAt log key ↔ r ∈ log.toList ∧ r.key = key := by
  simp only [revisionsAt, List.mem_filter, decide_eq_true_eq]

/-- The query keeps for each visible timestamp one row of it. -/
theorem rankOne_ts (visible : List (Revision φ)) : (rankOne visible).map (fun r => r.ts) =
    sortOn id (visible.map fun r => r.ts).dedup := by
  refine map_filterMap_eq_self fun ts hts => ?_
  rw [mem_sortOn, List.mem_dedup] at hts
  obtain ⟨r, hr, hrts⟩ := List.mem_map.1 hts
  cases hmax : (visible.filter fun r => r.ts = ts).argmax Revision.rank with
  | none =>
    have : r ∈ visible.filter fun r => r.ts = ts := by simp [hr, hrts]
    rw [List.argmax_eq_none.1 hmax] at this
    exact absurd this (by simp)
  | some r' =>
    refine ⟨r', rfl, ?_⟩
    have := List.argmax_mem hmax
    simp only [List.mem_filter, decide_eq_true_eq] at this
    exact this.2

theorem rankOne_pairwise (visible : List (Revision φ)) :
    (rankOne visible).Pairwise fun r r' => r.ts < r'.ts := by
  have hlt := sortOn_id_pairwise_lt (List.nodup_dedup (visible.map fun r => r.ts))
  rw [← rankOne_ts, List.pairwise_map] at hlt
  exact hlt

/-- A row of rank one is visible and no visible revision of the same candle ranks higher. -/
theorem mem_rankOne {visible : List (Revision φ)} {r : Revision φ} (h : r ∈ rankOne visible) :
    r ∈ visible ∧ ∀ r' ∈ visible, r'.ts = r.ts → r'.rank ≤ r.rank := by
  obtain ⟨ts, -, hmax⟩ := List.mem_filterMap.1 h
  have hmem := List.argmax_mem hmax
  simp only [List.mem_filter, decide_eq_true_eq] at hmem
  refine ⟨hmem.1, fun r' hr' hts => List.le_of_mem_argmax ?_ hmax⟩
  simp only [List.mem_filter, decide_eq_true_eq]
  exact ⟨hr', hts.trans hmem.2⟩

/-- Without a boundary the point-in-time query finds the revisions behind the current rows. -/
theorem currentRows_eq {s : Store φ} (h : Inv s) (c : CheckedArgs) :
    currentRows s.tables.candles c =
      (rankOne (visibleRevisions s.tables.revisions c maxBoundary)).map Revision.candle := by
  set visible := visibleRevisions s.tables.revisions c maxBoundary with hvisible
  have hgroup : ∀ ts, c.startTs ≤ ts ∧ ts ≤ c.endTs → (visible.filter fun r => r.ts = ts) =
      revisionsAt s.tables.revisions (c.symbol, c.timeframe, ts) := by
    intro ts hrange
    rw [hvisible, visibleRevisions, List.filter_filter, revisionsAt]
    refine List.filter_congr fun r hr => ?_
    have := h.available r hr
    simp only [Revision.key, Prod.mk.injEq, ← Bool.decide_and, decide_eq_decide]
    constructor
    · rintro ⟨hts, hsymbol, htimeframe, -⟩
      exact ⟨hsymbol, htimeframe, hts⟩
    · rintro ⟨hsymbol, htimeframe, rfl⟩
      exact ⟨rfl, hsymbol, htimeframe, hrange.1, hrange.2, this⟩
  have hstamps : sortOn id (visible.map fun r => r.ts).dedup =
      (seriesTs s.tables.candles c.symbol c.timeframe).filter
        fun ts => c.startTs ≤ ts ∧ ts ≤ c.endTs := by
    have hasc := (@seriesTs_pairwise _ _ _ s.tables.candles c.symbol c.timeframe).filter
      fun ts => decide (c.startTs ≤ ts ∧ ts ≤ c.endTs)
    refine Eq.trans (sortOn_id_congr (List.nodup_dedup _) (hasc.imp ne_of_lt) fun ts => ?_)
      (sortOn_eq_self (hasc.imp le_of_lt))
    rw [List.mem_dedup, List.mem_map, List.mem_filter, decide_eq_true_eq, mem_seriesTs, h.current,
      Option.isSome_map, Option.isSome_iff_ne_none, ne_eq, latest_eq_none]
    constructor
    · rintro ⟨r, hr, rfl⟩
      obtain ⟨hlog, hsymbol, htimeframe, hstart, hend, -⟩ := mem_visibleRevisions.1 hr
      refine ⟨List.ne_nil_of_mem (mem_revisionsAt.2 ⟨hlog, ?_⟩), hstart, hend⟩
      simp [Revision.key, hsymbol, htimeframe]
    · rintro ⟨hne, hrange⟩
      rw [← hgroup ts hrange] at hne
      obtain ⟨r, hr⟩ := List.exists_mem_of_ne_nil _ hne
      simp only [List.mem_filter, decide_eq_true_eq] at hr
      exact ⟨r, hr.1, hr.2⟩
  rw [currentRows, rankOne, hstamps, List.map_filterMap]
  refine List.filterMap_congr fun ts hts => ?_
  rw [List.mem_filter, decide_eq_true_eq] at hts
  rw [h.current, hgroup ts hts.2]
  rfl

theorem capped_map {α β : Type} (f : α → β) (cap : ℤ) (l : List α) :
    capped cap (l.map f) = (capped cap l).map (List.map f) := by
  unfold capped
  simp only [← List.map_take, List.length_map]
  split_ifs <;> rfl

/-- A read within its cap returns all rows. -/
theorem capped_eq_ok {α : Type} {cap : ℤ} {l rows : List α} (h : capped cap l = .ok rows) :
    rows = l := by
  unfold capped at h
  obtain ⟨hcap, h⟩ := check_eq_ok.1 h
  obtain rfl := Except.ok.inj h
  rw [List.length_take] at hcap
  exact List.take_of_length_le (by omega)

omit [LinearOrder φ] [Zero φ] in
/-- Where every row of `candles` has its revision, only the rows of the log are read. -/
theorem mergeLegacy_eq {legacy rows : List (ReadRow φ)}
    (hts : legacy.map ReadRow.ts = rows.map ReadRow.ts)
    (hasc : rows.Pairwise fun r r' => r.ts < r'.ts) : mergeLegacy legacy rows = rows := by
  unfold mergeLegacy
  set assigned := legacy.map (fun r => { r with provenanceStatus := some "legacy_unknown" }) ++ rows
    with hassigned
  have hstamps : sortOn id (assigned.map ReadRow.ts).dedup = rows.map ReadRow.ts := by
    have hlt : (rows.map ReadRow.ts).Pairwise (· < ·) := List.pairwise_map.2 hasc
    refine Eq.trans (sortOn_id_congr (List.nodup_dedup _) (hlt.imp ne_of_lt) fun ts => ?_)
      (sortOn_eq_self (hlt.imp le_of_lt))
    have hlegacy : (legacy.map fun r => { r with provenanceStatus := some "legacy_unknown" }).map
        ReadRow.ts = rows.map ReadRow.ts := by
      rw [← hts, List.map_map]
      rfl
    rw [List.mem_dedup, hassigned, List.map_append, hlegacy, List.mem_append, or_self]
  have hfind : ∀ r ∈ rows, (assigned.reverse.find? fun r' => r'.ts = r.ts) = some r := by
    intro r hr
    rw [hassigned, List.reverse_append, List.find?_append]
    cases hfound : rows.reverse.find? fun r' => r'.ts = r.ts with
    | none =>
      rw [List.find?_eq_none] at hfound
      exact absurd (hfound r (List.mem_reverse.2 hr)) (by simp)
    | some r' =>
      have hmem := List.mem_reverse.1 (List.mem_of_find?_eq_some hfound)
      have hsame : r'.ts = r.ts := by simpa using List.find?_some hfound
      have hinj : (rows.map ReadRow.ts).Nodup := (List.pairwise_map.2 hasc).imp ne_of_lt
      rw [List.inj_on_of_nodup_map hinj hmem hr hsame]
      rfl
  dsimp only
  rw [hstamps, List.filterMap_map]
  have hsome : ∀ r ∈ rows, ((fun ts => assigned.reverse.find? fun r' => r'.ts = ts) ∘ ReadRow.ts) r =
      some r := fun r hr => hfind r hr
  rw [List.filterMap_congr hsome, List.filterMap_some]

omit [LinearOrder φ] [Zero φ] in
/-- A normalised symbol stays as it is. -/
theorem normalizeSymbol_again {py : Python ν φ} {symbol token : String}
    (h : normalizeSymbol py symbol = .ok token) : normalizeSymbol py token = .ok token := by
  unfold normalizeSymbol at h
  simp only [check_eq_ok, Except.ok.injEq] at h
  obtain ⟨hvalid, htoken⟩ := h
  rw [htoken] at hvalid
  push Not at hvalid
  obtain ⟨hne, hchars⟩ := hvalid
  have hchars : ∀ c ∈ token.toList, isSymbolChar c = true := fun c hc => by simpa using hchars c hc
  have hstrip : py.strip token = token := py.strip_plain token fun c hc => .inl (hchars c hc)
  have hupper : py.upper token = token := py.upper_plain token hchars
  have hmap : token.map (fun c => if c = '-' ∨ c = '/' then '_' else c) = token := by
    apply String.ext
    rw [String.toList_map]
    refine (List.map_congr_left fun c hc => ?_).trans (List.map_id _)
    have hc := hchars c hc
    rw [if_neg]
    · rfl
    · rintro (rfl | rfl) <;> exact absurd hc (by decide)
  unfold normalizeSymbol
  simp only [hstrip, hupper, hmap]
  rw [if_neg]
  push Not
  exact ⟨hne, fun c hc => by simp [hchars c hc]⟩

omit [LinearOrder φ] [Zero φ] in
theorem lower_strip_plain (py : Python ν φ) {t : String} (h : ∀ c ∈ t.toList, isLowerChar c) :
    py.lower (py.strip t) = t := by
  rw [py.strip_plain t fun c hc => .inr (h c hc), py.lower_plain t h]

omit [LinearOrder φ] [Zero φ] in
theorem normalizeTimeframe_token (py : Python ν φ) (timeframe : Timeframe) :
    normalizeTimeframe py timeframe.token = .ok timeframe := by
  have hplain : ∀ c ∈ timeframe.token.toList, isLowerChar c := by
    cases timeframe <;> simp [Timeframe.token] <;> decide
  unfold normalizeTimeframe
  rw [lower_strip_plain py hplain]
  cases timeframe <;> rfl

omit [LinearOrder φ] [Zero φ] in
theorem checkArgs_again {py : Python ν φ} {maxReadRows : ℤ} {a : ReadArgs}
    (h : checkArgs py maxReadRows a = .ok c) :
    checkArgs py maxReadRows { a with symbol := c.symbol, timeframe := c.timeframe.token } =
      .ok c := by
  unfold checkArgs at h
  obtain ⟨symbol, hsymbol, h⟩ := bind_eq_ok.1 h
  obtain ⟨timeframe, -, h⟩ := bind_eq_ok.1 h
  by_cases horder : a.endTs < a.startTs
  · simp only [if_pos horder] at h
    exact absurd h nofun
  simp only [if_neg horder] at h
  by_cases hcap : a.limit.getD maxReadRows < 1 ∨ maxReadRows < a.limit.getD maxReadRows
  · simp only [if_pos hcap] at h
    exact absurd h nofun
  simp only [if_neg hcap] at h
  obtain rfl := Except.ok.inj h
  unfold checkArgs
  rw [normalizeSymbol_again hsymbol]
  simp only [normalizeTimeframe_token]
  exact (if_neg horder).trans (if_neg hcap)

end Readers

end ResearchLab.Candles
