import Mathlib
import ResearchLab.Candles.PointInTime
import ResearchLab.Foundation.Related

/-!
# Which acquisition wins

Batches of one series whose acquisition times grow. A row that repeats the identity of a recorded
revision is ignored, whenever it was acquired; of the others the last one is read.
-/
namespace ResearchLab.Candles
open Foundation Foundation.IntOrder

variable {ν φ : Type} [LinearOrder φ] [Zero φ]

/-! ## The rows of a run -/

/-- The batches that were committed, after their checks. -/
def history (py : Python ν φ) : Store φ → List (Env × Batch ν) → List (Prepared φ)
  | _, [] => []
  | s, call :: calls =>
      let after := upsertCandles py call.1 call.2 s
      match after.1, prepare py call.1 call.2 with
      | .ok _, .ok p => p :: history py after.2 calls
      | _, _ => history py after.2 calls

def rowsOf (batches : List (Prepared φ)) : List (NormalizedRow φ) := batches.flatMap Prepared.rows

/-- A row is recorded unless its revision is already. -/
def recordRow (recorded : List (NormalizedRow φ)) (n : NormalizedRow φ) : List (NormalizedRow φ) :=
  if n.revisionId ∈ recorded.map NormalizedRow.revisionId then recorded else recorded ++ [n]

/-- The rows that brought a revision not recorded before. -/
def newRows (rows : List (NormalizedRow φ)) : List (NormalizedRow φ) := rows.foldl recordRow []

/-- The last row of a timestamp that brought a new revision. -/
def lastNew (rows : List (NormalizedRow φ)) (ts : ℤ) : Option (NormalizedRow φ) :=
  ((newRows rows).filter fun n => n.clean.ts = ts).getLast?

theorem history_cons_ok {py : Python ν φ} {s : Store φ} {call : Env × Batch ν}
    {calls : List (Env × Batch ν)} {p : Prepared φ} {result : UpsertResult} {after : Store φ}
    (hp : prepare py call.1 call.2 = .ok p)
    (hok : upsertCandles py call.1 call.2 s = (.ok result, after)) :
    history py s (call :: calls) = p :: history py after calls := by
  simp only [history, hok, hp]

theorem newRows_concat (rows : List (NormalizedRow φ)) (n : NormalizedRow φ) :
    newRows (rows ++ [n]) = recordRow (newRows rows) n := by
  rw [newRows, List.foldl_append]
  rfl

theorem newRows_sublist (rows : List (NormalizedRow φ)) : (newRows rows).Sublist rows := by
  induction rows using List.reverseRecOn with
  | nil => exact .refl _
  | append_singleton rows n ih =>
    rw [newRows_concat, recordRow]
    split_ifs
    · exact ih.trans (List.sublist_append_left _ _)
    · exact ih.append (.refl [n])

/-! ## The log -/

/-- The revision of a row. -/
def IsRevisionOf (symbol : String) (timeframe : Timeframe) (n : NormalizedRow φ) (r : Revision φ) :
    Prop :=
  ∃ parent, r = n.revision symbol timeframe parent

/-- The log holds the revisions of the recorded rows, in order. -/
structure Records (symbol : String) (timeframe : Timeframe) (recorded : List (NormalizedRow φ))
    (log : Table String (Revision φ)) : Prop where
  keyed : Keyed log
  rows : List.Forall₂ (IsRevisionOf symbol timeframe) recorded log.toList

section
variable {symbol : String} {timeframe : Timeframe} {log log' : Table String (Revision φ)}
  {recorded : List (NormalizedRow φ)} {n : NormalizedRow φ} {env : Env}

theorem Records.row_isSome (h : Records symbol timeframe recorded log) (id : String) :
    (log.row id).isSome ↔ id ∈ recorded.map NormalizedRow.revisionId := by
  have hids : ∀ {recorded : List (NormalizedRow φ)} {l : List (Revision φ)},
      List.Forall₂ (IsRevisionOf symbol timeframe) recorded l →
      recorded.map NormalizedRow.revisionId = l.map Revision.revisionId := by
    intro recorded l hrows
    induction hrows with
    | nil => rfl
    | cons hr _ ih =>
      obtain ⟨parent, rfl⟩ := hr
      rw [List.map_cons, List.map_cons, ih]
      rfl
  rw [hids h.rows, List.mem_map, Option.isSome_iff_exists]
  constructor
  · rintro ⟨r, hr⟩
    exact ⟨r, Table.mem_toList.2 ⟨id, hr⟩, h.keyed id r hr⟩
  · rintro ⟨r, hr, rfl⟩
    obtain ⟨id, hid⟩ := Table.mem_toList.1 hr
    exact ⟨r, (h.keyed id r hid).symm ▸ hid⟩

theorem Records.append (h : Records symbol timeframe recorded log)
    (happend : appendRevision env symbol timeframe log n = .ok log') :
    Records symbol timeframe (recordRow recorded n) log' := by
  obtain ⟨new, hextends, -⟩ := appendRevision_spec happend
  refine ⟨hextends.keyed h.keyed, ?_⟩
  unfold appendRevision at happend
  obtain ⟨_, -, happend⟩ := bind_eq_ok.1 happend
  obtain ⟨_, -, happend⟩ := bind_eq_ok.1 happend
  obtain ⟨_, -, happend⟩ := bind_eq_ok.1 happend
  rw [← Except.ok.inj happend, recordRow]
  have hsome := h.row_isSome n.revisionId
  cases hrow : log.row n.revisionId with
  | some old =>
    rw [if_pos (hsome.1 (by simp [hrow])), Table.insert, dif_neg (by simp [hrow])]
    exact h.rows
  | none =>
    rw [if_neg fun hmem => by simpa [hrow] using hsome.2 hmem, Table.toList_insert hrow]
    exact List.rel_append h.rows (.cons ⟨_, rfl⟩ .nil)

theorem Records.appendAll {rows : List (NormalizedRow φ)} (h : Records symbol timeframe recorded log)
    (happend : rows.foldlM (appendRevision env symbol timeframe) log = .ok log') :
    Records symbol timeframe (rows.foldl recordRow recorded) log' := by
  induction rows generalizing log recorded with
  | nil =>
    obtain rfl := Except.ok.inj happend
    exact h
  | cons n rows ih =>
    rw [List.foldlM_cons] at happend
    obtain ⟨middle, hfirst, hrest⟩ := bind_eq_ok.1 happend
    exact ih (h.append hfirst) hrest

end

/-! ## The latest revision -/

/-- Where ranks ascend, the last item ranks highest. -/
theorem argmax_eq_getLast? {α β : Type} [LinearOrder β] {f : α → β} {l : List α}
    (h : l.Pairwise fun a b => f a < f b) : l.argmax f = l.getLast? := by
  induction l using List.reverseRecOn with
  | nil => rfl
  | append_singleton l a ih =>
    obtain ⟨hl, -, hlt⟩ := List.pairwise_append.1 h
    rw [List.argmax_concat, ih hl, List.getLast?_concat]
    cases hlast : l.getLast? with
    | none => rfl
    | some b => exact if_pos (hlt b (List.mem_of_getLast? hlast) a (by simp))

/-- The rows of a timestamp in the order of their acquisition, which no row delays. -/
def Ascending (rows : List (NormalizedRow φ)) : Prop :=
  rows.Pairwise fun n m => n.clean.ts = m.clean.ts →
    n.times.acquired < m.times.acquired ∧ n.times.available ≤ m.times.available

section
variable {symbol : String} {timeframe : Timeframe} {log : Table String (Revision φ)}
  {rows : List (NormalizedRow φ)}

theorem forall₂_filter_ts {l : List (Revision φ)}
    (h : List.Forall₂ (IsRevisionOf symbol timeframe) rows l) (ts : ℤ) :
    List.Forall₂ (IsRevisionOf symbol timeframe) (rows.filter fun n => n.clean.ts = ts)
      (l.filter fun r => r.key = (symbol, timeframe, ts)) := by
  induction h with
  | nil => exact .nil
  | @cons n r rows l hr _ ih =>
    obtain ⟨parent, rfl⟩ := hr
    have hkey : (n.revision symbol timeframe parent).key = (symbol, timeframe, n.clean.ts) := rfl
    by_cases hts : n.clean.ts = ts
    · rw [List.filter_cons_of_pos (by simp [hts]), List.filter_cons_of_pos (by simp [hkey, hts])]
      exact .cons ⟨parent, rfl⟩ ih
    · rw [List.filter_cons_of_neg (by simp [hts]), List.filter_cons_of_neg (by simp [hkey, hts])]
      exact ih

/-- The revisions of rows that are acquired in order ascend in rank. -/
theorem rank_pairwise {l : List (Revision φ)} (h : List.Forall₂ (IsRevisionOf symbol timeframe) rows l)
    (hrows : rows.Pairwise fun n m =>
      n.times.acquired < m.times.acquired ∧ n.times.available ≤ m.times.available) :
    l.Pairwise fun r r' => r.rank < r'.rank := by
  induction h with
  | nil => exact .nil
  | @cons n r rows l hr hrest ih =>
    obtain ⟨hn, hrows⟩ := List.pairwise_cons.1 hrows
    refine List.pairwise_cons.2 ⟨fun r' hr' => ?_, ih hrows⟩
    obtain ⟨m, hm, parent', rfl⟩ := exists_related_right hrest hr'
    obtain ⟨parent, rfl⟩ := hr
    obtain ⟨hacquired, havailable⟩ := hn m hm
    simp only [Revision.rank, NormalizedRow.revision, Prod.Lex.toLex_lt_toLex]
    rcases havailable.lt_or_eq with hlt | heq
    · exact .inl hlt
    · exact .inr ⟨heq, .inl hacquired⟩

theorem latest_eq_lastNew (h : Records symbol timeframe (newRows rows) log) (hrows : Ascending rows)
    (ts : ℤ) : Option.Rel (IsRevisionOf symbol timeframe) (lastNew rows ts)
      (latest log (symbol, timeframe, ts)) := by
  have hfilter := forall₂_filter_ts h.rows ts
  have hascending : ((newRows rows).filter fun n => n.clean.ts = ts).Pairwise fun n m =>
      n.times.acquired < m.times.acquired ∧ n.times.available ≤ m.times.available := by
    refine ((hrows.sublist (newRows_sublist rows)).filter _).imp_of_mem fun hn hm h => h ?_
    rw [of_decide_eq_true (List.mem_filter.1 hn).2, of_decide_eq_true (List.mem_filter.1 hm).2]
  rw [latest, revisionsAt, argmax_eq_getLast? (rank_pairwise hfilter hascending), lastNew]
  exact getLast?_related hfilter

end

/-! ## Runs -/

section
variable {py : Python ν φ} {s : Store φ} {calls : List (Env × Batch ν)} {symbol : String}
  {timeframe : Timeframe}

theorem write_log {env : Env} {source : String} {p : Prepared φ} {tables tables' : Tables φ}
    {coverage : Coverage} (h : write env source p tables = .ok (tables', coverage)) :
    p.rows.foldlM (appendRevision env p.symbol p.timeframe) tables.revisions =
      .ok tables'.revisions := by
  unfold write at h
  obtain ⟨log, hlog, h⟩ := bind_eq_ok.1 h
  obtain ⟨candles, -, h⟩ := bind_eq_ok.1 h
  obtain ⟨result, hseries, h⟩ := bind_eq_ok.1 h
  obtain ⟨_, -, h⟩ := bind_eq_ok.1 h
  obtain rfl := Except.ok.inj h
  rw [hlog, (refreshSeries_spec hseries).1]

/-- The log of a run holds the rows of its batches that brought a new revision. -/
theorem records_run {recorded : List (NormalizedRow φ)}
    (h : Records symbol timeframe recorded s.tables.revisions)
    (hseries : ∀ p ∈ history py s calls, p.symbol = symbol ∧ p.timeframe = timeframe) :
    Records symbol timeframe ((rowsOf (history py s calls)).foldl recordRow recorded)
      ((candleStore py).run s calls).tables.revisions := by
  induction calls generalizing s recorded with
  | nil => exact h
  | cons call calls ih =>
    rw [Machine.run_cons]
    change Records symbol timeframe _
      ((candleStore py).run (upsertCandles py call.1 call.2 s).2 calls).tables.revisions
    rcases upsertCandles_cases py call.1 call.2 s with ⟨e, he, htables, -⟩ |
      ⟨p, tables, coverage, result, hp, hwrite, hstep⟩
    · have hskip : history py s (call :: calls) =
          history py (upsertCandles py call.1 call.2 s).2 calls := by
        simp only [history, he]
      rw [hskip] at hseries ⊢
      exact ih (htables.symm ▸ h) hseries
    · rw [history_cons_ok hp hstep] at hseries ⊢
      obtain ⟨rfl, rfl⟩ := hseries p List.mem_cons_self
      rw [hstep, rowsOf, List.flatMap_cons, List.foldl_append]
      exact ih (h.appendAll (write_log hwrite)) fun q hq => hseries q (List.mem_cons_of_mem _ hq)

theorem inv_run (h : Inv s) : Inv ((candleStore py).run s calls) := by
  induction calls generalizing s with
  | nil => exact h
  | cons call calls ih => exact ih (h.step call.1 call.2)

/-- Batches that carry a timestamp at most once, each acquired after the ones before it. -/
theorem ascending_rowsOf {batches : List (Prepared φ)}
    (honce : ∀ p ∈ batches, (p.rows.map fun n => n.clean.ts).Nodup)
    (horder : batches.Pairwise fun p q => ∀ n ∈ p.rows, ∀ m ∈ q.rows, n.clean.ts = m.clean.ts →
      n.times.acquired < m.times.acquired ∧ n.times.available ≤ m.times.available) :
    Ascending (rowsOf batches) := by
  rw [Ascending, rowsOf, List.pairwise_flatMap]
  refine ⟨fun p hp => ?_, horder⟩
  have hne := honce p hp
  rw [List.Nodup, List.pairwise_map] at hne
  exact hne.imp fun hne heq => absurd heq hne

/-- The timestamps that were carried, in order. -/
def carriedTs (batches : List (Prepared φ)) : List ℤ :=
  sortOn id ((rowsOf batches).map fun n => n.clean.ts).dedup

theorem lastNew_carried {batches : List (Prepared φ)} {ts : ℤ}
    (h : (lastNew (rowsOf batches) ts).isSome) : ts ∈ carriedTs batches := by
  obtain ⟨n, hn⟩ := Option.isSome_iff_exists.1 h
  obtain ⟨hmem, hts⟩ := List.mem_filter.1 (List.mem_of_getLast? hn)
  rw [carriedTs, mem_sortOn, List.mem_dedup, ← of_decide_eq_true hts]
  exact List.mem_map_of_mem ((newRows_sublist _).subset hmem)

/-- The current rows of a run are the last rows that brought a new revision. -/
theorem candle_run (hinit : s.tables = .empty)
    (hseries : ∀ p ∈ history py s calls, p.symbol = symbol ∧ p.timeframe = timeframe)
    (hascending : Ascending (rowsOf (history py s calls))) (ts : ℤ) :
    (((candleStore py).run s calls).tables.candles.row (symbol, timeframe, ts)).map
        (fun candle => candle.fields) =
      (lastNew (rowsOf (history py s calls)) ts).map fun n => n.clean.fields := by
  have hempty : Records symbol timeframe [] s.tables.revisions := by
    rw [hinit]
    refine ⟨fun id r hr => ?_, List.Forall₂.nil⟩
    cases hr
  have hlatest := latest_eq_lastNew (records_run hempty hseries) hascending ts
  rw [(inv_run (.init hinit)).current]
  change Option.Rel _ (lastNew _ ts) _ at hlatest
  generalize lastNew (rowsOf (history py s calls)) ts = winner at hlatest ⊢
  generalize latest ((candleStore py).run s calls).tables.revisions (symbol, timeframe, ts) = revision
    at hlatest ⊢
  cases hlatest with
  | none => rfl
  | some h =>
    obtain ⟨parent, rfl⟩ := h
    rfl

theorem filterMap_filter_isSome {α β : Type} (f : α → Option β) (l : List α) :
    (l.filter fun a => (f a).isSome).filterMap f = l.filterMap f := by
  rw [List.filterMap_filter]
  refine List.filterMap_congr fun a _ => ?_
  cases f a <;> rfl

theorem currentRows_run (hinit : s.tables = .empty)
    (hseries : ∀ p ∈ history py s calls, p.symbol = symbol ∧ p.timeframe = timeframe)
    (hascending : Ascending (rowsOf (history py s calls))) {c : CheckedArgs}
    (hsymbol : c.symbol = symbol) (htimeframe : c.timeframe = timeframe) :
    (currentRows ((candleStore py).run s calls).tables.candles c).map (fun candle => candle.fields) =
      ((carriedTs (history py s calls)).filter fun ts => c.startTs ≤ ts ∧ ts ≤ c.endTs).filterMap
        fun ts => (lastNew (rowsOf (history py s calls)) ts).map fun n => n.clean.fields := by
  subst hsymbol htimeframe
  have hcandle := candle_run hinit hseries hascending
  set candles := ((candleStore py).run s calls).tables.candles
  have hsome : ∀ ts, (candles.row (c.symbol, c.timeframe, ts)).isSome =
      (lastNew (rowsOf (history py s calls)) ts).isSome := by
    intro ts
    rw [← Option.isSome_map, hcandle, Option.isSome_map]
  have hstamps : seriesTs candles c.symbol c.timeframe =
      (carriedTs (history py s calls)).filter fun ts =>
        ((lastNew (rowsOf (history py s calls)) ts).map fun n => n.clean.fields).isSome := by
    refine eq_of_ascending id seriesTs_pairwise
      ((sortOn_id_pairwise_lt (List.nodup_dedup _)).filter _) fun ts => ?_
    rw [mem_seriesTs, hsome, List.mem_filter, Option.isSome_map]
    exact ⟨fun h => ⟨lastNew_carried h, h⟩, fun h => h.2⟩
  rw [currentRows, List.map_filterMap, hstamps, List.filter_comm, ← filterMap_filter_isSome
    fun ts => (lastNew (rowsOf (history py s calls)) ts).map fun n => n.clean.fields]
  exact List.filterMap_congr fun ts _ => hcandle ts

theorem capped_of_le {α : Type} {cap : ℤ} {l : List α} (h : (l.length : ℤ) ≤ cap) :
    capped cap l = .ok l := by
  have hlen : l.length ≤ (cap + 1).toNat := by omega
  simp only [capped, List.take_of_length_le hlen]
  exact if_neg (by omega)

/-- A read within its cap returns the current rows. -/
theorem read_eq_currentRows (hinv : Inv s) {maxReadRows : ℤ} {a : ReadArgs} {c : CheckedArgs}
    (hargs : checkArgs py maxReadRows a = .ok c)
    (hbind : bindInts [c.startTs, c.endTs, c.cap + 1] = .ok ())
    (hcap : ((currentRows s.tables.candles c).length : ℤ) ≤ c.cap) :
    publicFields (read py maxReadRows s a "v2") =
      .ok ((currentRows s.tables.candles c).map fun candle => candle.fields) := by
  have hv1 : read py maxReadRows s a "v1" = readV1 py maxReadRows s a := by
    rw [read, readerVersion_v1]
    rfl
  rcases read_agrees hinv maxReadRows a with h | ⟨-, -, e, he, -⟩
  · rw [h, hv1, readV1]
    cases hpresent : s.present with
    | false =>
      have hnone : currentRows s.tables.candles c = [] := by
        rw [hinv.absent hpresent]
        rfl
      rw [if_pos rfl, hnone]
      rfl
    | true =>
      rw [if_neg (by simp), hargs]
      simp only [bind, Except.bind, hbind, capped_of_le hcap]
      rw [publicFields]
      simp only [pure, Except.pure, Except.map, List.map_map]
      rfl
  · rw [hargs] at he
    cases he

/-- A read of a run within its cap returns for each timestamp the last row that brought a new
revision; a row that repeats a recorded revision changes nothing. -/
theorem last_new_revision_is_read (py : Python ν φ) {s : Store φ} {calls : List (Env × Batch ν)}
    {symbol : String} {timeframe : Timeframe} (hinit : s.tables = .empty)
    (hseries : ∀ p ∈ history py s calls, p.symbol = symbol ∧ p.timeframe = timeframe)
    (honce : ∀ p ∈ history py s calls, (p.rows.map fun n => n.clean.ts).Nodup)
    (horder : (history py s calls).Pairwise fun p q => ∀ n ∈ p.rows, ∀ m ∈ q.rows,
      n.clean.ts = m.clean.ts →
        n.times.acquired < m.times.acquired ∧ n.times.available ≤ m.times.available)
    {maxReadRows : ℤ} {a : ReadArgs} {c : CheckedArgs} (hargs : checkArgs py maxReadRows a = .ok c)
    (hsymbol : c.symbol = symbol) (htimeframe : c.timeframe = timeframe)
    (hbind : bindInts [c.startTs, c.endTs, c.cap + 1] = .ok ())
    (hcap : (((carriedTs (history py s calls)).filter fun ts => c.startTs ≤ ts ∧ ts ≤ c.endTs).length :
      ℤ) ≤ c.cap) :
    publicFields (read py maxReadRows ((candleStore py).run s calls) a "v2") =
      .ok (((carriedTs (history py s calls)).filter fun ts => c.startTs ≤ ts ∧ ts ≤ c.endTs).filterMap
        fun ts => (lastNew (rowsOf (history py s calls)) ts).map fun n => n.clean.fields) := by
  have hinv : Inv ((candleStore py).run s calls) := inv_run (.init hinit)
  have hrows := currentRows_run hinit hseries (ascending_rowsOf honce horder) hsymbol htimeframe
  have hlen := congrArg List.length hrows
  rw [List.length_map] at hlen
  rw [read_eq_currentRows hinv hargs hbind, hrows]
  rw [hlen]
  refine le_trans ?_ hcap
  exact_mod_cast List.length_filterMap_le _ _

end

/-! ## A price that was corrected back -/

omit [LinearOrder φ] [Zero φ] in
theorem memberOrder_eq_sortOn {fmt : Json.Format (PyFloat φ)} (hsort : fmt.sortKeys = true)
    {members : List (String × List Char)} (h : (members.map Prod.fst).Nodup) :
    Json.memberOrder fmt members = sortOn Prod.fst members := by
  have hperm := members.mergeSort_perm fun a b => decide (a.1 ≤ b.1)
  have hsorted : (members.mergeSort fun a b => decide (a.1 ≤ b.1)).Pairwise fun a b => a.1 ≤ b.1 := by
    refine (List.pairwise_mergeSort ?_ ?_ members).imp of_decide_eq_true
    · intro a b c hab hbc
      exact decide_eq_true (le_trans (of_decide_eq_true hab) (of_decide_eq_true hbc))
    · intro a b
      rcases le_total a.1 b.1 with hle | hle <;> simp [hle]
  rw [Json.memberOrder, if_pos hsort, ← sortOn_eq_of_perm hperm ((hperm.map _).nodup_iff.2 h),
    sortOn_eq_self hsorted]

omit [LinearOrder φ] [Zero φ] in
theorem map_fst_dumpsMembers (fmt : Json.Format (PyFloat φ)) (members : List (String × JsonValue φ)) :
    (Json.dumpsMembers fmt members).map Prod.fst = members.map Prod.fst := by
  induction members with
  | nil => rfl
  | cons member members ih =>
    obtain ⟨key, value⟩ := member
    rw [Json.dumpsMembers, List.map_cons, List.map_cons, ih]

omit [LinearOrder φ] [Zero φ] in
/-- The canonical text of an object with different keys. -/
theorem dumps_obj (py : Python ν φ) (ascii : Bool) {members : List (String × JsonValue φ)}
    (h : (members.map Prod.fst).Nodup) :
    dumps py ascii (.obj members) = String.ofList ('\x7b' :: [','].intercalate
      ((sortOn Prod.fst (Json.dumpsMembers { Json.canonical py.repr with ensureAscii := ascii }
        members)).map (Json.dumpsMember { Json.canonical py.repr with ensureAscii := ascii })) ++
          ['\x7d']) := by
  rw [dumps, Json.dumps, memberOrder_eq_sortOn rfl]
  · rfl
  · rwa [map_fst_dumpsMembers]

/-- A minute bar, available at 70000, that was acquired at this time. -/
def acquiredCall (close : ℚ) (acquired : ℤ) : Env × Batch (JsonValue ℚ) :=
  (⟨0, acquired, fun _ => false⟩,
    ⟨"BTC_USDT", "1m", [minuteRow close], "fixture", true, none, some 70000, some 70000,
      some acquired⟩)

def minuteFields (close : ℚ) : List (String × JsonValue ℚ) :=
  [("ts", .int 60000), ("date", .str "1970-01-01T00:01:00+00:00"), ("open", .float (.finite 100)),
    ("high", .float (.finite 200)), ("low", .float (.finite 50)), ("close", .float (.finite close)),
    ("vol", .float (.finite 3))]

/-- The revision of such a bar. -/
def minuteRevision (close : ℚ) : String :=
  candleRevisionId exactPython "BTC_USDT" .m1 60000
    (candleRowContentHash exactPython (minuteFields close)) "fixture" 70000 70000

theorem map_symbol_eq {f : Char → Char} (h : ∀ c ∈ "BTC_USDT".toList, f c = c) :
    "BTC_USDT".map f = "BTC_USDT" := by
  apply String.ext
  rw [String.toList_map]
  exact (List.map_congr_left h).trans (List.map_id _)

theorem upper_btc : exactPython.upper "BTC_USDT" = "BTC_USDT" :=
  exactPython.upper_plain "BTC_USDT" (by simp; decide)

theorem normalizeSymbol_btc : normalizeSymbol exactPython "BTC_USDT" = .ok "BTC_USDT" := by
  have hstrip : exactPython.strip "BTC_USDT" = "BTC_USDT" :=
    exactPython.strip_plain "BTC_USDT" (by simp; decide)
  simp only [normalizeSymbol, hstrip, upper_btc]
  rw [map_symbol_eq (by simp)]
  exact if_neg (by simp; decide)

theorem identitySymbol_btc : identitySymbol exactPython "BTC_USDT" = "BTC_USDT" := by
  rw [identitySymbol, map_symbol_eq (by simp), upper_btc]

/-- The fields of such a bar that its content hash covers. -/
theorem minuteFields_content (close : ℚ) :
    ((minuteFields close).filter fun p => isPrivate p.1 = false ∧ p.1 ∉ derivedOrProvenance) =
      [("ts", .int 60000), ("open", .float (.finite 100)), ("high", .float (.finite 200)),
        ("low", .float (.finite 50)), ("close", .float (.finite close)),
        ("vol", .float (.finite 3))] := by
  have hkeep : ∀ key ∈ ["ts", "open", "high", "low", "close", "vol"],
      decide (isPrivate key = false ∧ key ∉ derivedOrProvenance) = true := by decide +kernel
  have hdrop : decide (isPrivate "date" = false ∧ "date" ∉ derivedOrProvenance) = false := by
    decide +kernel
  simp only [List.forall_mem_cons] at hkeep
  obtain ⟨hts, hopen, hhigh, hlow, hclose, hvol, -⟩ := hkeep
  simp only [minuteFields, List.filter, hts, hopen, hhigh, hlow, hclose, hvol, hdrop]

theorem contentHash_101 : candleRowContentHash exactPython (minuteFields 101) =
    "8bcdf9699282a6d7e27dc4d25023ab2dc3d203c4fb4eb8090a4c1e18ecea94c6" := by
  simp only [candleRowContentHash]
  rw [minuteFields_content, dumps_obj _ _ (by decide +kernel)]
  decide +kernel

theorem contentHash_102 : candleRowContentHash exactPython (minuteFields 102) =
    "9844fd903227a03da61465c3b1b417550f91623d22dcb6807ecffd97ffe7df11" := by
  simp only [candleRowContentHash]
  rw [minuteFields_content, dumps_obj _ _ (by decide +kernel)]
  decide +kernel

theorem minuteRevision_101 : minuteRevision 101 =
    "cr_7fb477ca560141f49defdbac64a33902f1cacb04f33b68f730bf0f703f44fd14" := by
  rw [minuteRevision, contentHash_101, candleRevisionId, identitySymbol_btc,
    dumps_obj _ _ (by decide +kernel)]
  decide +kernel

theorem minuteRevision_102 : minuteRevision 102 =
    "cr_95059f81f302196c2383c76739a75de9e216593d747646c261178739e93bad91" := by
  rw [minuteRevision, contentHash_102, candleRevisionId, identitySymbol_btc,
    dumps_obj _ _ (by decide +kernel)]
  decide +kernel

/-- The two prices are different revisions. -/
theorem minuteRevision_ne : minuteRevision 102 ≠ minuteRevision 101 := by
  rw [minuteRevision_101, minuteRevision_102]
  decide +kernel

/-- What is looked at in a normalised row. -/
structure RowFacts where
  ts : ℤ
  date : String
  prices : List ℚ
  optional : List (Option ℚ)
  plain : Bool
  times : List ℤ
  deriving DecidableEq

def NormalizedRow.facts (n : NormalizedRow ℚ) : RowFacts where
  ts := n.clean.ts
  date := n.clean.date
  prices := [n.clean.open_, n.clean.high, n.clean.low, n.clean.close, n.clean.vol]
  optional := n.clean.optional
  plain := n.clean.extra.isEmpty
  times := [n.times.observed, n.times.available, n.times.acquired, n.acquisitionOrder]

def minuteFacts (close : ℚ) (acquired : ℤ) : RowFacts where
  ts := 60000
  date := "1970-01-01T00:01:00+00:00"
  prices := [100, 200, 50, close, 3]
  optional := List.replicate 6 none
  plain := true
  times := [70000, 70000, acquired, 0]

/-- The row of such a batch after its checks. -/
structure IsMinute (n : NormalizedRow ℚ) (close : ℚ) (acquired : ℤ) : Prop where
  ts : n.clean.ts = 60000
  fields : n.clean.fields = minuteFields close
  observed : n.times.observed = 70000
  available : n.times.available = 70000
  acquired : n.times.acquired = acquired
  order : n.acquisitionOrder = 0
  revisionId : n.revisionId = minuteRevision close

theorem checkRow_revisionId {py : Python ν φ} {symbol source : String} {timeframe : Timeframe}
    {default : DefaultTimes} {order : ℕ} {row : Row ν} {n : NormalizedRow φ}
    (h : checkRow py symbol timeframe source default order row = .ok n)
    (hsource : ((row.lookup "_source").filter py.truthy).or
      ((row.lookup "source").filter py.truthy) = none) :
    n.revisionId = candleRevisionId py symbol timeframe n.clean.ts
      (candleRowContentHash py n.clean.fields) source n.times.observed n.times.available := by
  unfold checkRow at h
  obtain ⟨acquired, -, h⟩ := bind_eq_ok.1 h
  obtain ⟨available, -, h⟩ := bind_eq_ok.1 h
  obtain ⟨observed, -, h⟩ := bind_eq_ok.1 h
  obtain ⟨times, htimes, h⟩ := bind_eq_ok.1 h
  obtain ⟨clean, -, h⟩ := bind_eq_ok.1 h
  rw [← Except.ok.inj h, hsource]
  simp only [validateProvenanceTimes] at htimes
  split_ifs at htimes
  rw [← Except.ok.inj htimes]
  rfl

theorem checkRow_minute {close : ℚ} {acquired : ℤ}
    (h : (checkRow exactPython "BTC_USDT" .m1 "fixture" ⟨acquired, 70000, 70000⟩ 0
      (minuteRow close)).toOption.map NormalizedRow.facts = some (minuteFacts close acquired)) :
    ∃ n, checkRow exactPython "BTC_USDT" .m1 "fixture" ⟨acquired, 70000, 70000⟩ 0
      (minuteRow close) = .ok n ∧ IsMinute n close acquired := by
  cases hn : checkRow exactPython "BTC_USDT" .m1 "fixture" ⟨acquired, 70000, 70000⟩ 0
      (minuteRow close) with
  | error e => simp [hn, Except.toOption] at h
  | ok n =>
    rw [hn] at h
    simp only [Except.toOption, Option.map_some, Option.some.injEq, NormalizedRow.facts, minuteFacts,
      RowFacts.mk.injEq, List.cons.injEq, List.isEmpty_iff, and_true, Nat.cast_eq_zero] at h
    obtain ⟨hts, hdate, ⟨hopen, hhigh, hlow, hclose, hvol⟩, hoptional, hextra, hobserved, havailable,
      hacquired, horder⟩ := h
    have hfields : n.clean.fields = minuteFields close := by
      simp only [Columns.fields, hts, hdate, hopen, hhigh, hlow, hclose, hvol, hoptional, hextra]
      rfl
    refine ⟨n, rfl, hts, hfields, hobserved, havailable, hacquired, horder, ?_⟩
    rw [checkRow_revisionId hn rfl, hts, hfields, hobserved, havailable]
    rfl

/-- A call whose statements do not fail commits its rows. -/
theorem upsertCandles_ok {py : Python ν φ} {env : Env} {batch : Batch ν} {s : Store φ}
    {p : Prepared φ} (hfails : ∀ statement, env.fails statement = false)
    (hp : prepare py env batch = .ok p)
    (hrows : ∀ n ∈ p.rows, bindInts [n.clean.ts, n.times.observed, n.times.available,
      n.times.acquired, n.acquisitionOrder] = .ok ())
    (hnow : bindInts [p.now] = .ok ()) :
    ∃ result tables, upsertCandles py env batch s = (.ok result, ⟨true, tables⟩) := by
  have hexecute : ∀ statement, env.execute statement = .ok () :=
    fun statement => by simp [Env.execute, hfails]
  have happend : ∀ (rows : List (NormalizedRow φ)) (log : Table String (Revision φ)),
      (∀ n ∈ rows, bindInts [n.clean.ts, n.times.observed, n.times.available, n.times.acquired,
        n.acquisitionOrder] = .ok ()) →
      ∃ log', rows.foldlM (appendRevision env p.symbol p.timeframe) log = .ok log' := by
    intro rows
    induction rows with
    | nil => exact fun log _ => ⟨log, rfl⟩
    | cons n rows ih =>
      intro log hrows
      have hall := hrows n List.mem_cons_self
      have hts : bindInts [n.clean.ts] = .ok () := by
        have := bindInts_eq_ok hall n.clean.ts (by simp)
        simp [bindInts, this]
      rw [List.foldlM_cons]
      simp only [appendRevision, hts, hall, hexecute, bind, Except.bind]
      exact ih _ fun m hm => hrows m (List.mem_cons_of_mem _ hm)
  have hproject : ∀ (stamps : List ℤ) (log : Table String (Revision φ))
      (candles : Table CandleKey (Candle φ)),
      ∃ candles', stamps.foldlM (projectLatest env p.symbol p.timeframe log) candles = .ok candles' := by
    intro stamps log
    induction stamps with
    | nil => exact fun candles => ⟨candles, rfl⟩
    | cons ts stamps ih =>
      intro candles
      rw [List.foldlM_cons]
      cases hlatest : latest log (p.symbol, p.timeframe, ts) with
      | none =>
        simp only [projectLatest, hlatest, bind, Except.bind]
        exact ih candles
      | some r =>
        simp only [projectLatest, hlatest, hexecute, bind, Except.bind]
        exact ih _
  obtain ⟨log, hlog⟩ := happend p.rows s.tables.revisions hrows
  obtain ⟨candles, hcandles⟩ := hproject p.acceptedTs log s.tables.candles
  rw [upsertCandles, hp]
  simp only [hexecute, write, hlog, hcandles, refreshSeries, hnow, bind, Except.bind, pure, Except.pure]
  exact ⟨_, _, rfl⟩

/-- A batch of one such row after its checks. -/
structure IsBatch (spec : ℚ × ℤ) (p : Prepared ℚ) : Prop where
  symbol : p.symbol = "BTC_USDT"
  timeframe : p.timeframe = .m1
  now : p.now = spec.2
  rows : ∃ n, p.rows = [n] ∧ IsMinute n spec.1 spec.2

theorem bindInts_ok {l : List ℤ} (h : ∀ n ∈ l, 0 ≤ n ∧ n ≤ maxBoundary) : bindInts l = .ok () := by
  refine if_pos fun n hn => ?_
  have := h n hn
  rw [maxBoundary] at this
  omega

theorem prepare_eq_ok {py : Python ν φ} {env : Env} {batch : Batch ν} {symbol : String}
    {timeframe : Timeframe} {default : DefaultTimes} {rows : List (NormalizedRow φ)} {rejected : ℕ}
    (hbudget : env.usageBytes < hardBudgetBytes)
    (hsymbol : normalizeSymbol py batch.symbol = .ok symbol)
    (htimeframe : normalizeTimeframe py batch.timeframe = .ok timeframe)
    (hdefault : batch.defaultTimes env = .ok default)
    (hrows : normalizeRows batch.strict (checkRow py symbol timeframe batch.source default) 0
      batch.rows = .ok (rows, rejected)) :
    prepare py env batch = .ok ⟨symbol, timeframe, default.now, rows, rejected⟩ := by
  rw [prepare, if_neg (not_le.2 hbudget)]
  simp only [hsymbol, htimeframe, hdefault, hrows, bind, Except.bind, pure, Except.pure]

theorem prepare_minute {spec : ℚ × ℤ} (htime : 70000 ≤ spec.2)
    (h : (checkRow exactPython "BTC_USDT" .m1 "fixture" ⟨spec.2, 70000, 70000⟩ 0
      (minuteRow spec.1)).toOption.map NormalizedRow.facts = some (minuteFacts spec.1 spec.2)) :
    ∃ p, prepare exactPython (acquiredCall spec.1 spec.2).1 (acquiredCall spec.1 spec.2).2 = .ok p ∧
      IsBatch spec p := by
  obtain ⟨n, hn, hminute⟩ := checkRow_minute h
  have htimeframe : normalizeTimeframe exactPython "1m" = .ok .m1 :=
    normalizeTimeframe_token exactPython .m1
  have hdefault : (acquiredCall spec.1 spec.2).2.defaultTimes (acquiredCall spec.1 spec.2).1 =
      .ok ⟨spec.2, 70000, 70000⟩ := by
    have hvalid : ∃ times, validateProvenanceTimes 70000 70000 spec.2 = .ok times := by
      rw [validateProvenanceTimes, dif_neg (by omega), dif_neg (by omega), dif_neg (by omega)]
      exact ⟨_, rfl⟩
    obtain ⟨times, htimes⟩ := hvalid
    simp only [Batch.defaultTimes, acquiredCall, Option.or_none, Option.getD_some, htimes]
    rfl
  have hrows : normalizeRows true (checkRow exactPython "BTC_USDT" .m1 "fixture"
      ⟨spec.2, 70000, 70000⟩) 0 [minuteRow spec.1] = .ok ([n], 0) := by
    simp only [normalizeRows, hn]
    rfl
  exact ⟨_, prepare_eq_ok (by norm_num [acquiredCall, hardBudgetBytes]) normalizeSymbol_btc htimeframe
    hdefault hrows, rfl, rfl, rfl, n, rfl, hminute⟩

theorem history_minutes {specs : List (ℚ × ℤ)}
    (h : ∀ spec ∈ specs, 70000 ≤ spec.2 ∧ spec.2 ≤ maxBoundary ∧
      (checkRow exactPython "BTC_USDT" .m1 "fixture" ⟨spec.2, 70000, 70000⟩ 0
        (minuteRow spec.1)).toOption.map NormalizedRow.facts = some (minuteFacts spec.1 spec.2))
    (s : Store ℚ) : List.Forall₂ IsBatch specs
      (history exactPython s (specs.map fun spec => acquiredCall spec.1 spec.2)) := by
  induction specs generalizing s with
  | nil => exact .nil
  | cons spec specs ih =>
    obtain ⟨htime, hmax, hfacts⟩ := h spec List.mem_cons_self
    obtain ⟨p, hp, hbatch⟩ := prepare_minute htime hfacts
    obtain ⟨n, hrows, hminute⟩ := hbatch.rows
    have hints : ∀ m ∈ p.rows, bindInts [m.clean.ts, m.times.observed, m.times.available,
        m.times.acquired, m.acquisitionOrder] = .ok () := by
      intro m hm
      rw [hrows, List.mem_singleton] at hm
      rw [hm, hminute.ts, hminute.observed, hminute.available, hminute.acquired, hminute.order]
      have hplain : ∀ n ∈ ([60000, 70000, 70000, 0] : List ℤ), 0 ≤ n ∧ n ≤ maxBoundary := by
        decide +kernel
      refine bindInts_ok fun n hn => ?_
      have hmem : n = spec.2 ∨ n ∈ ([60000, 70000, 70000, 0] : List ℤ) := by
        simp only [List.mem_cons, List.not_mem_nil, or_false, Nat.cast_zero] at hn ⊢
        tauto
      rcases hmem with rfl | hmem
      · exact ⟨le_trans (by norm_num) htime, hmax⟩
      · exact hplain n hmem
    have hnow : bindInts [p.now] = .ok () := by
      rw [hbatch.now]
      refine bindInts_ok fun n hn => ?_
      rw [List.mem_singleton.1 hn]
      exact ⟨le_trans (by norm_num) htime, hmax⟩
    obtain ⟨result, tables, hok⟩ := upsertCandles_ok (s := s) (fun _ => rfl) hp hints hnow
    rw [List.map_cons, history_cons_ok hp hok]
    exact .cons hbatch (ih (fun spec' hspec' => h spec' (List.mem_cons_of_mem _ hspec')) _)

/-- A price, its correction, and the first price again, all available at the same time. -/
def revertedSpecs : List (ℚ × ℤ) := [(101, 70000), (102, 80000), (101, 90000)]

def revertedCalls : List (Env × Batch (JsonValue ℚ)) :=
  revertedSpecs.map fun spec => acquiredCall spec.1 spec.2

theorem history_reverted : ∃ p₁ p₂ p₃, history exactPython ⟨false, .empty⟩ revertedCalls = [p₁, p₂, p₃] ∧
    IsBatch (101, 70000) p₁ ∧ IsBatch (102, 80000) p₂ ∧ IsBatch (101, 90000) p₃ := by
  have hall : ∀ spec ∈ revertedSpecs, 70000 ≤ spec.2 ∧ spec.2 ≤ maxBoundary ∧
      (checkRow exactPython "BTC_USDT" .m1 "fixture" ⟨spec.2, 70000, 70000⟩ 0
        (minuteRow spec.1)).toOption.map NormalizedRow.facts = some (minuteFacts spec.1 spec.2) := by
    decide +kernel
  have h := history_minutes hall ⟨false, .empty⟩
  rw [← revertedCalls] at h
  generalize history exactPython ⟨false, .empty⟩ revertedCalls = batches at h ⊢
  cases h with
  | cons h₁ h =>
    cases h with
    | cons h₂ h =>
      cases h with
      | cons h₃ h =>
        cases h
        exact ⟨_, _, _, rfl, h₁, h₂, h₃⟩

omit [LinearOrder φ] [Zero φ] in
theorem checkArgs_ok {py : Python ν φ} {maxReadRows : ℤ} {a : ReadArgs} {symbol : String}
    {timeframe : Timeframe} (hsymbol : normalizeSymbol py a.symbol = .ok symbol)
    (htimeframe : normalizeTimeframe py a.timeframe = .ok timeframe) (hrange : a.startTs ≤ a.endTs)
    (hlimit : a.limit = none) (hmax : 1 ≤ maxReadRows) :
    checkArgs py maxReadRows a = .ok ⟨symbol, timeframe, a.startTs, a.endTs, maxReadRows⟩ := by
  unfold checkArgs
  simp only [hsymbol, htimeframe, hlimit, Option.getD_none, bind, Except.bind, pure, Except.pure]
  have hcap : ¬ (maxReadRows < 1 ∨ maxReadRows < maxReadRows) := by omega
  exact (if_neg (not_lt.2 hrange)).trans (if_neg hcap)

def revertedArgs : ReadArgs := ⟨"BTC_USDT", "1m", 0, 100000, none⟩

theorem checkArgs_reverted : checkArgs exactPython 100 revertedArgs =
    .ok ⟨"BTC_USDT", .m1, 0, 100000, 100⟩ :=
  checkArgs_ok normalizeSymbol_btc (normalizeTimeframe_token exactPython .m1)
    (show (0 : ℤ) ≤ 100000 by norm_num) rfl (by norm_num)

/-- The rows of the run, and what it needs of them. -/
theorem rows_reverted : ∃ n₁ n₂ n₃,
    rowsOf (history exactPython ⟨false, .empty⟩ revertedCalls) = [n₁, n₂, n₃] ∧
      IsMinute n₁ 101 70000 ∧ IsMinute n₂ 102 80000 ∧ IsMinute n₃ 101 90000 := by
  obtain ⟨p₁, p₂, p₃, hhistory, ⟨-, -, -, n₁, h₁, hn₁⟩, ⟨-, -, -, n₂, h₂, hn₂⟩, -, -, -, n₃, h₃, hn₃⟩ :=
    history_reverted
  refine ⟨n₁, n₂, n₃, ?_, hn₁, hn₂, hn₃⟩
  simp only [hhistory, rowsOf, List.flatMap_cons, h₁, h₂, h₃, List.flatMap_nil, List.cons_append,
    List.nil_append]

theorem carriedTs_reverted :
    carriedTs (history exactPython ⟨false, .empty⟩ revertedCalls) = [60000] := by
  obtain ⟨n₁, n₂, n₃, hrows, hn₁, hn₂, hn₃⟩ := rows_reverted
  rw [carriedTs, hrows]
  simp only [List.map_cons, List.map_nil, hn₁.ts, hn₂.ts, hn₃.ts]
  decide +kernel

theorem series_reverted : ∀ p ∈ history exactPython ⟨false, .empty⟩ revertedCalls,
    (p.symbol = "BTC_USDT" ∧ p.timeframe = .m1) ∧ (p.rows.map fun n => n.clean.ts).Nodup := by
  obtain ⟨p₁, p₂, p₃, hhistory, h₁, h₂, h₃⟩ := history_reverted
  have hone : ∀ {spec : ℚ × ℤ} {p : Prepared ℚ}, IsBatch spec p →
      (p.symbol = "BTC_USDT" ∧ p.timeframe = .m1) ∧ (p.rows.map fun n => n.clean.ts).Nodup := by
    rintro spec p ⟨hsymbol, htimeframe, -, n, hrows, -⟩
    rw [hrows]
    exact ⟨⟨hsymbol, htimeframe⟩, List.nodup_singleton _⟩
  rw [hhistory]
  simp only [List.forall_mem_cons, List.not_mem_nil, false_imp_iff, implies_true, and_true]
  exact ⟨hone h₁, hone h₂, hone h₃⟩

theorem order_reverted : (history exactPython ⟨false, .empty⟩ revertedCalls).Pairwise fun p q =>
    ∀ n ∈ p.rows, ∀ m ∈ q.rows, n.clean.ts = m.clean.ts →
      n.times.acquired < m.times.acquired ∧ n.times.available ≤ m.times.available := by
  obtain ⟨p₁, p₂, p₃, hhistory, h₁, h₂, h₃⟩ := history_reverted
  have hpair : ∀ {spec spec' : ℚ × ℤ} {p q : Prepared ℚ}, IsBatch spec p → IsBatch spec' q →
      spec.2 < spec'.2 → ∀ n ∈ p.rows, ∀ m ∈ q.rows, n.clean.ts = m.clean.ts →
        n.times.acquired < m.times.acquired ∧ n.times.available ≤ m.times.available := by
    rintro spec spec' p q ⟨-, -, -, n, hn, hminute⟩ ⟨-, -, -, m, hm, hminute'⟩ hlt n' hn' m' hm' -
    rw [hn, List.mem_singleton] at hn'
    rw [hm, List.mem_singleton] at hm'
    rw [hn', hm', hminute.acquired, hminute'.acquired, hminute.available, hminute'.available]
    exact ⟨hlt, le_rfl⟩
  rw [hhistory]
  simp only [List.pairwise_cons, List.mem_cons, List.not_mem_nil, or_false, forall_eq_or_imp,
    forall_eq, false_imp_iff, implies_true, and_true, List.Pairwise.nil]
  exact ⟨⟨hpair h₁ h₂ (by norm_num), hpair h₁ h₃ (by norm_num)⟩, hpair h₂ h₃ (by norm_num)⟩

theorem last_new_revision_is_read_reverted :
    publicFields (read exactPython 100 ((candleStore exactPython).run ⟨false, .empty⟩ revertedCalls)
        revertedArgs "v2") =
      .ok (((carriedTs (history exactPython ⟨false, .empty⟩ revertedCalls)).filter
        fun ts => 0 ≤ ts ∧ ts ≤ 100000).filterMap fun ts =>
          (lastNew (rowsOf (history exactPython ⟨false, .empty⟩ revertedCalls)) ts).map fun n =>
            n.clean.fields) :=
  last_new_revision_is_read exactPython rfl (fun p hp => (series_reverted p hp).1)
    (fun p hp => (series_reverted p hp).2) order_reverted checkArgs_reverted rfl rfl
    (bindInts_ok (by decide +kernel)) (by
      rw [carriedTs_reverted]
      decide +kernel)

/-- A price that was corrected and then corrected back is not read. -/
theorem reverted_price_is_not_read : ∃ n₁ n₂ n₃,
    rowsOf (history exactPython ⟨false, .empty⟩ revertedCalls) = [n₁, n₂, n₃] ∧
      n₁.times.acquired < n₂.times.acquired ∧ n₂.times.acquired < n₃.times.acquired ∧
      n₁.times.available ≤ n₂.times.available ∧ n₂.times.available ≤ n₃.times.available ∧
      n₃.clean.fields = minuteFields 101 ∧
      publicFields (read exactPython 100 ((candleStore exactPython).run ⟨false, .empty⟩ revertedCalls)
        revertedArgs "v2") = .ok [minuteFields 102] := by
  obtain ⟨n₁, n₂, n₃, hrows, hn₁, hn₂, hn₃⟩ := rows_reverted
  refine ⟨n₁, n₂, n₃, hrows, ?_, ?_, ?_, ?_, hn₃.fields, ?_⟩
  · rw [hn₁.acquired, hn₂.acquired]
    norm_num
  · rw [hn₂.acquired, hn₃.acquired]
    norm_num
  · rw [hn₁.available, hn₂.available]
  · rw [hn₂.available, hn₃.available]
  have hlast : lastNew [n₁, n₂, n₃] 60000 = some n₂ := by
    have hsecond : recordRow [n₁] n₂ = [n₁, n₂] := by
      refine if_neg ?_
      rw [List.map_singleton, List.mem_singleton, hn₁.revisionId, hn₂.revisionId]
      exact minuteRevision_ne
    have hthird : recordRow [n₁, n₂] n₃ = [n₁, n₂] := by
      refine if_pos ?_
      rw [hn₃.revisionId, ← hn₁.revisionId]
      exact List.mem_cons_self
    have hnew : newRows [n₁, n₂, n₃] = recordRow (recordRow [n₁] n₂) n₃ := rfl
    rw [lastNew, hnew, hsecond, hthird]
    simp [hn₁.ts, hn₂.ts]
  have hcurrent := currentRows_run rfl (fun p hp => (series_reverted p hp).1)
    (ascending_rowsOf (fun p hp => (series_reverted p hp).2) order_reverted)
    (c := ⟨"BTC_USDT", .m1, 0, 100000, 100⟩) rfl rfl
  have hrange : ([60000] : List ℤ).filter (fun ts => 0 ≤ ts ∧ ts ≤ 100000) = [60000] := by decide
  rw [carriedTs_reverted, hrange, hrows] at hcurrent
  have hlen := congrArg List.length hcurrent
  simp only [List.filterMap_cons, hlast, Option.map_some, List.filterMap_nil, hn₂.fields] at hcurrent hlen
  rw [List.length_map, List.length_singleton] at hlen
  rw [read_eq_currentRows (inv_run (.init rfl)) checkArgs_reverted (bindInts_ok (by decide +kernel)),
    hcurrent]
  rw [hlen]
  norm_num

end ResearchLab.Candles
