import ResearchLab.Candles.Views
import ResearchLab.Foundation.Sha256

/-!
# What the readers return

The two readers return the same public fields, a snapshot shows the latest revisions that were
available at its boundary, and batches of later revisions leave it as it is.
-/
namespace ResearchLab.Candles
open Foundation Foundation.IntOrder

variable {ν φ : Type} [LinearOrder φ] [Zero φ]

/-! ## Agreement of the readers -/

omit [LinearOrder φ] [Zero φ] in
/-- The policy of a plain read is supported. -/
theorem buildSnapshot_available (py : Python ν φ) (q : SnapshotRequest)
    (hpolicy : q.coveragePolicy = "available") (rows : List (ReadRow φ))
    (hasc : rows.Pairwise fun r r' => r.ts < r'.ts) :
    ∃ snapshot, buildSnapshot py q rows = .ok snapshot ∧
      snapshot.rows.map ReadRow.fields = rows.map ReadRow.fields := by
  have hsorted : sortOn ReadRow.ts rows = rows := sortOn_eq_self (hasc.imp le_of_lt)
  have hplain : ∀ c ∈ "available".toList, isLowerChar c := by simp; decide
  have htoken : policyToken py q.coveragePolicy "available" = "available" := by
    rw [policyToken, hpolicy, if_neg (by decide), lower_strip_plain py hplain]
  have hmanifest : ∃ m, buildSnapshotManifest py q rows "sqlite" = .ok m := by
    unfold buildSnapshotManifest
    simp only [htoken]
    rw [if_neg (not_not.2 (by simp [supportedCoveragePolicies]))]
    exact ⟨_, rfl⟩
  obtain ⟨m, hm⟩ := hmanifest
  unfold buildSnapshot
  simp only [hsorted, hm]
  refine ⟨_, rfl, ?_⟩
  rw [List.map_map]
  rfl

omit [LinearOrder φ] [Zero φ] in
theorem readerVersion_v1 (py : Python ν φ) : readerVersion py "v1" = .ok .v1 := by
  rw [readerVersion, lower_strip_plain py (by simp; decide)]
  rfl

omit [LinearOrder φ] [Zero φ] in
theorem readerVersion_v2 (py : Python ν φ) : readerVersion py "v2" = .ok .v2 := by
  rw [readerVersion, lower_strip_plain py (by simp; decide)]
  rfl

/-- The boundary of a read without one is an integer of SQLite. -/
theorem bindInts_maxBoundary (a b c : ℤ) :
    bindInts [a, b, maxBoundary, c] = bindInts [a, b, c] := by
  simp [bindInts, maxBoundary]

/-- The public fields of a result. -/
def publicFields (result : Except PyError (List (ReadRow φ))) :
    Except PyError (List (List (String × JsonValue φ))) :=
  result.map (List.map ReadRow.fields)

/-- Once its arguments pass, a read returns the same public fields from either reader, or fails
with the same error. -/
theorem readSnapshot_agrees {py : Python ν φ} {s : Store φ} (h : Inv s) {maxReadRows : ℤ}
    {a : ReadArgs} {c : CheckedArgs} (hc : checkArgs py maxReadRows a = .ok c) (purpose : String) :
    publicFields ((readSnapshot py maxReadRows s a none purpose "available").map Snapshot.rows) =
      publicFields (readV1 py maxReadRows s a) := by
  have hagain := checkArgs_again hc
  unfold readSnapshot
  rw [hc]
  simp only [bind, Except.bind]
  cases hpresent : s.present with
  | false =>
    simp only [snapshotRevisions, readV1, hpresent, if_true, Except.map]
    obtain ⟨snapshot, hsnapshot, hfields⟩ := buildSnapshot_available py
      ⟨c.symbol, c.timeframe, c.startTs, c.endTs, none, purpose, "available"⟩ rfl [] .nil
    rw [show mergeLegacy [] (List.map Revision.read ([] : List (Revision φ))) = [] from rfl,
      hsnapshot]
    simp only [publicFields, Except.map, hfields]
  | true =>
    have hrevisions : snapshotRevisions s c none =
        bindInts [c.startTs, c.endTs, c.cap + 1] >>= fun _ => capped c.cap
          (rankOne (visibleRevisions s.tables.revisions c maxBoundary)) := by
      rw [snapshotRevisions, hpresent, if_neg (by simp)]
      change (bindInts [c.startTs, c.endTs, maxBoundary, c.cap + 1] >>= _) = _
      rw [bindInts_maxBoundary]
      rfl
    have hv1 : ∀ a', checkArgs py maxReadRows a' = .ok c → readV1 py maxReadRows s a' =
        bindInts [c.startTs, c.endTs, c.cap + 1] >>= fun _ => (capped c.cap
          (rankOne (visibleRevisions s.tables.revisions c maxBoundary))).map
            (List.map fun r => r.candle.read) := by
      intro a' ha'
      rw [readV1, hpresent, if_neg (by simp), ha']
      simp only [bind, Except.bind, currentRows_eq h, capped_map]
      cases bindInts [c.startTs, c.endTs, c.cap + 1] with
      | error e => rfl
      | ok _ =>
        cases capped c.cap (rankOne (visibleRevisions s.tables.revisions c maxBoundary)) with
        | error e => rfl
        | ok rows => simp [Except.map, pure, Except.pure]
    rw [hrevisions, hv1 a hc, hv1 _ hagain]
    cases bindInts [c.startTs, c.endTs, c.cap + 1] with
    | error e => rfl
    | ok _ =>
      simp only [bind, Except.bind]
      cases hrows : capped c.cap
          (rankOne (visibleRevisions s.tables.revisions c maxBoundary)) with
      | error e => rfl
      | ok rows =>
        obtain rfl := capped_eq_ok hrows
        have hasc := rankOne_pairwise (visibleRevisions s.tables.revisions c maxBoundary)
        set rows := rankOne (visibleRevisions s.tables.revisions c maxBoundary)
        have hread : (rows.map Revision.read).Pairwise fun r r' => r.ts < r'.ts :=
          List.pairwise_map.2 hasc
        have hmerge : mergeLegacy (rows.map fun r => r.candle.read) (rows.map Revision.read) =
            rows.map Revision.read := by
          refine mergeLegacy_eq ?_ hread
          rw [List.map_map, List.map_map]
          rfl
        obtain ⟨snapshot, hsnapshot, hfields⟩ := buildSnapshot_available py
          ⟨c.symbol, c.timeframe, c.startTs, c.endTs, none, purpose, "available"⟩ rfl _ hread
        simp only [Except.map, hmerge, hsnapshot, publicFields, hfields, List.map_map]
        rfl

/-- The readers differ only before the first write, where the older one does not look at its
arguments. -/
theorem read_agrees {py : Python ν φ} {s : Store φ} (h : Inv s) (maxReadRows : ℤ) (a : ReadArgs) :
    publicFields (read py maxReadRows s a "v2") = publicFields (read py maxReadRows s a "v1") ∨
      s.present = false ∧ read py maxReadRows s a "v1" = .ok [] ∧
        ∃ e, checkArgs py maxReadRows a = .error e ∧ read py maxReadRows s a "v2" = .error e := by
  have hv1 : read py maxReadRows s a "v1" = readV1 py maxReadRows s a := by
    rw [read, readerVersion_v1]
    rfl
  have hv2 : read py maxReadRows s a "v2" =
      (readSnapshot py maxReadRows s a none "compat_read" "available").map Snapshot.rows := by
    rw [read, readerVersion_v2]
    rfl
  cases hc : checkArgs py maxReadRows a with
  | ok c =>
    rw [hv1, hv2]
    exact .inl (readSnapshot_agrees h hc "compat_read")
  | error e =>
    have hfail : readSnapshot py maxReadRows s a none "compat_read" "available" = .error e := by
      rw [readSnapshot, hc]
      rfl
    rw [hv1, hv2, hfail]
    cases hpresent : s.present with
    | false =>
      refine .inr ⟨rfl, ?_, e, rfl, rfl⟩
      rw [readV1, hpresent, if_pos rfl]
    | true =>
      rw [readV1, hpresent, if_neg (by simp), hc]
      exact .inl rfl

/-! ## Snapshots -/

/-- A row of a snapshot is the latest revision of its candle that was available at the boundary. -/
structure LatestAt (s : Store φ) (boundary : ℤ) (row : ReadRow φ) (r : Revision φ) : Prop where
  mem : r ∈ s.tables.revisions.toList
  available : r.available ≤ boundary
  latest : ∀ r' ∈ s.tables.revisions.toList, r'.key = r.key → r'.available ≤ boundary →
    r'.rank ≤ r.rank
  fields : row.fields = r.fields
  lineage : row.lineage = r.read.lineage

theorem snapshotRevisions_spec {s : Store φ} {c : CheckedArgs} {boundary : ℤ}
    {revisions : List (Revision φ)}
    (h : snapshotRevisions s c (some boundary) = .ok revisions) {r : Revision φ}
    (hr : r ∈ revisions) :
    r ∈ s.tables.revisions.toList ∧ r.available ≤ boundary ∧
      ∀ r' ∈ s.tables.revisions.toList, r'.key = r.key → r'.available ≤ boundary →
        r'.rank ≤ r.rank := by
  unfold snapshotRevisions at h
  split_ifs at h with hpresent
  · obtain rfl := Except.ok.inj h
    exact absurd hr (by simp)
  obtain ⟨_, -, h⟩ := bind_eq_ok.1 h
  obtain rfl := capped_eq_ok h
  obtain ⟨hvisible, hmax⟩ := mem_rankOne hr
  obtain ⟨hlog, hsymbol, htimeframe, hstart, hend, havailable⟩ := mem_visibleRevisions.1 hvisible
  refine ⟨hlog, havailable, fun r' hr' hkey havailable' => ?_⟩
  simp only [Revision.key, Prod.mk.injEq] at hkey
  refine hmax r' (mem_visibleRevisions.2 ⟨hr', hkey.1.trans hsymbol, hkey.2.1.trans htimeframe, ?_,
    ?_, havailable'⟩) hkey.2.2
  · exact hkey.2.2.symm ▸ hstart
  · exact hkey.2.2.symm ▸ hend

theorem readSnapshot_rows {py : Python ν φ} {maxReadRows : ℤ} {s : Store φ} {a : ReadArgs}
    {boundary : ℤ} {purpose policy : String} {snapshot : Snapshot φ}
    (h : readSnapshot py maxReadRows s a (some boundary) purpose policy = .ok snapshot)
    {row : ReadRow φ} (hrow : row ∈ snapshot.rows) : ∃ r, LatestAt s boundary row r := by
  unfold readSnapshot at h
  obtain ⟨c, -, h⟩ := bind_eq_ok.1 h
  obtain ⟨revisions, hrevisions, h⟩ := bind_eq_ok.1 h
  obtain ⟨rows, hrows, h⟩ := bind_eq_ok.1 h
  obtain rfl := Except.ok.inj hrows
  unfold buildSnapshot at h
  obtain ⟨manifest, -, h⟩ := bind_eq_ok.1 h
  obtain rfl := Except.ok.inj h
  obtain ⟨row', hrow', rfl⟩ := List.mem_map.1 hrow
  obtain ⟨r, hr, rfl⟩ := List.mem_map.1 (mem_sortOn.1 hrow')
  obtain ⟨hmem, havailable, hlatest⟩ := snapshotRevisions_spec hrevisions hr
  exact ⟨r, hmem, havailable, hlatest, rfl, rfl⟩

/-! ## Later revisions -/

/-- Every row of the batch that has an availability became available after the boundary. -/
def Batch.AvailableAfter (py : Python ν φ) (boundary : ℤ) (env : Env) (batch : Batch ν) : Prop :=
  ∀ row ∈ batch.rows, ∀ default, batch.defaultTimes env = .ok default → ∀ available,
    rowTime py row "available_at_ms" default.available = .ok available → boundary < available

theorem checkRow_available {py : Python ν φ} {symbol : String} {timeframe : Timeframe}
    {source : String} {default : DefaultTimes} {order : ℕ} {row : Row ν} {n : NormalizedRow φ}
    (h : checkRow py symbol timeframe source default order row = .ok n) :
    rowTime py row "available_at_ms" default.available = .ok n.times.available := by
  unfold checkRow at h
  obtain ⟨acquired, -, h⟩ := bind_eq_ok.1 h
  obtain ⟨available, havailable, h⟩ := bind_eq_ok.1 h
  obtain ⟨observed, -, h⟩ := bind_eq_ok.1 h
  obtain ⟨times, htimes, h⟩ := bind_eq_ok.1 h
  obtain ⟨clean, -, h⟩ := bind_eq_ok.1 h
  obtain rfl := Except.ok.inj h
  rw [havailable, validateProvenanceTimes_available htimes]

/-- Every accepted row passed its checks. -/
theorem normalizeRows_spec {strict : Bool} {check : ℕ → Row ν → Except PyError (NormalizedRow φ)}
    {order : ℕ} {rows : List (Row ν)} {normalized : List (NormalizedRow φ)} {rejected : ℕ}
    (h : normalizeRows strict check order rows = .ok (normalized, rejected)) {n : NormalizedRow φ}
    (hn : n ∈ normalized) : ∃ row ∈ rows, ∃ order', check order' row = .ok n := by
  induction rows generalizing order normalized rejected with
  | nil =>
    obtain ⟨rfl, -⟩ := Prod.mk.inj (Except.ok.inj h)
    exact absurd hn (by simp)
  | cons row rows ih =>
    have hrest : ∀ normalized rejected, normalizeRows strict check (order + 1) rows =
        .ok (normalized, rejected) → n ∈ normalized →
        ∃ row' ∈ row :: rows, ∃ order', check order' row' = .ok n := by
      intro normalized rejected hnormalized hn
      obtain ⟨row', hrow', hcheck⟩ := ih hnormalized hn
      exact ⟨row', List.mem_cons_of_mem _ hrow', hcheck⟩
    unfold normalizeRows at h
    split at h
    · next first hfirst =>
      obtain ⟨⟨normalized', rejected'⟩, hnormalized, hpair⟩ := map_eq_ok.1 h
      obtain ⟨rfl, rfl⟩ := Prod.mk.inj hpair
      rcases List.mem_cons.1 hn with rfl | hn
      · exact ⟨row, List.mem_cons_self, order, hfirst⟩
      · exact hrest _ _ hnormalized hn
    · split_ifs at h
      obtain ⟨⟨normalized', rejected'⟩, hnormalized, hpair⟩ := map_eq_ok.1 h
      obtain ⟨rfl, rfl⟩ := Prod.mk.inj hpair
      exact hrest _ _ hnormalized hn
    · exact absurd h nofun

theorem prepare_spec {py : Python ν φ} {env : Env} {batch : Batch ν} {p : Prepared φ}
    (h : prepare py env batch = .ok p) : ∃ default, batch.defaultTimes env = .ok default ∧
      normalizeRows batch.strict (checkRow py p.symbol p.timeframe batch.source default) 0
        batch.rows = .ok (p.rows, p.rejected) := by
  unfold prepare at h
  by_cases hbudget : hardBudgetBytes ≤ env.usageBytes
  · simp only [if_pos hbudget] at h
    exact absurd h nofun
  simp only [if_neg hbudget] at h
  obtain ⟨symbol, -, h⟩ := bind_eq_ok.1 h
  obtain ⟨timeframe, -, h⟩ := bind_eq_ok.1 h
  obtain ⟨default, hdefault, h⟩ := bind_eq_ok.1 h
  obtain ⟨⟨rows, rejected⟩, hrows, h⟩ := bind_eq_ok.1 h
  obtain rfl := Except.ok.inj h
  exact ⟨default, hdefault, hrows⟩

/-- What a store looks like after batches that a boundary does not see. -/
structure Unseen (boundary : ℤ) (s t : Store φ) : Prop where
  present : s.present = true → t.present = true
  log : ∃ new, t.tables.revisions.toList = s.tables.revisions.toList ++ new ∧
    ∀ r ∈ new, boundary < r.available

theorem Unseen.step {py : Python ν φ} {boundary : ℤ} {env : Env} {batch : Batch ν}
    (h : batch.AvailableAfter py boundary env) (s : Store φ) :
    Unseen boundary s (upsertCandles py env batch s).2 := by
  rcases upsertCandles_cases py env batch s with ⟨e, -, htables, hpresent⟩ |
    ⟨p, tables, coverage, result, hprepare, hwrite, hstep⟩
  · exact ⟨hpresent, [], by rw [htables, List.append_nil], by simp⟩
  · rw [hstep]
    obtain ⟨⟨new, hextends, hadds⟩, -⟩ := write_spec hwrite
    refine ⟨fun _ => rfl, new, hextends.toList, fun r hr => ?_⟩
    obtain ⟨n, hn, parent, rfl⟩ := (hadds r hr).row
    obtain ⟨default, hdefault, hrows⟩ := prepare_spec hprepare
    obtain ⟨row, hrow, order, hcheck⟩ := normalizeRows_spec hrows hn
    exact h row hrow default hdefault _ (checkRow_available hcheck)

theorem Unseen.run {py : Python ν φ} {boundary : ℤ} {s t : Store φ} {calls : List (Env × Batch ν)}
    (h : (candleStore py).Steps s calls t)
    (hafter : ∀ call ∈ calls, call.2.AvailableAfter py boundary call.1) : Unseen boundary s t := by
  induction h with
  | nil s => exact ⟨id, [], by simp, by simp⟩
  | @cons s t call calls _ _ ih =>
    have hfirst := Unseen.step (hafter call List.mem_cons_self) s
    have hrest := ih fun call' hcall' => hafter call' (List.mem_cons_of_mem _ hcall')
    obtain ⟨new, hnew, hnew'⟩ := hfirst.log
    obtain ⟨more, hmore, hmore'⟩ := hrest.log
    refine ⟨fun hs => hrest.present (hfirst.present hs), new ++ more, ?_, ?_⟩
    · rw [hmore, ← List.append_assoc]
      exact congrArg (· ++ more) hnew
    · intro r hr
      exact (List.mem_append.1 hr).elim (hnew' r) (hmore' r)

theorem Unseen.visibleRevisions {boundary : ℤ} {s t : Store φ} (h : Unseen boundary s t)
    (c : CheckedArgs) : visibleRevisions t.tables.revisions c boundary =
      visibleRevisions s.tables.revisions c boundary := by
  obtain ⟨new, hnew, hafter⟩ := h.log
  have hnone : new.filter (fun r => decide (r.symbol = c.symbol ∧ r.timeframe = c.timeframe ∧
      c.startTs ≤ r.ts ∧ r.ts ≤ c.endTs ∧ r.available ≤ boundary)) = [] := by
    refine List.filter_eq_nil_iff.2 fun r hr => ?_
    have := hafter r hr
    simp only [decide_eq_true_eq]
    rintro ⟨-, -, -, -, hle⟩
    omega
  rw [Candles.visibleRevisions, hnew, List.filter_append, hnone, List.append_nil]
  rfl

omit [LinearOrder φ] [Zero φ] in
theorem checkArgs_cap {py : Python ν φ} {maxReadRows : ℤ} {a : ReadArgs} {c : CheckedArgs}
    (h : checkArgs py maxReadRows a = .ok c) : 1 ≤ c.cap := by
  unfold checkArgs at h
  obtain ⟨symbol, -, h⟩ := bind_eq_ok.1 h
  obtain ⟨timeframe, -, h⟩ := bind_eq_ok.1 h
  by_cases horder : a.endTs < a.startTs
  · simp only [if_pos horder] at h
    exact absurd h nofun
  simp only [if_neg horder] at h
  by_cases hcap : a.limit.getD maxReadRows < 1 ∨ maxReadRows < a.limit.getD maxReadRows
  · simp only [if_pos hcap] at h
    exact absurd h nofun
  simp only [if_neg hcap] at h
  obtain rfl := Except.ok.inj h
  exact not_lt.1 (not_or.1 hcap).1

/-- Before the first write only a request that is no request to SQLite can come out otherwise. -/
theorem Unseen.readSnapshot {py : Python ν φ} {boundary : ℤ} {s t : Store φ} (hs : Inv s)
    (h : Unseen boundary s t) (maxReadRows : ℤ) (a : ReadArgs) (purpose policy : String) :
    Candles.readSnapshot py maxReadRows t a (some boundary) purpose policy =
        Candles.readSnapshot py maxReadRows s a (some boundary) purpose policy ∨
      s.present = false ∧ Candles.readSnapshot py maxReadRows t a (some boundary) purpose policy =
        .error .overflowError := by
  cases hc : checkArgs py maxReadRows a with
  | error e =>
    left
    rw [Candles.readSnapshot, Candles.readSnapshot, hc]
    rfl
  | ok c =>
    have hsame : ∀ s' t' : Store φ, snapshotRevisions t' c (some boundary) =
        snapshotRevisions s' c (some boundary) →
        Candles.readSnapshot py maxReadRows t' a (some boundary) purpose policy =
          Candles.readSnapshot py maxReadRows s' a (some boundary) purpose policy := by
      intro s' t' hrevisions
      rw [Candles.readSnapshot, Candles.readSnapshot, hc]
      simp only [bind, Except.bind, hrevisions]
    cases hpresent : s.present with
    | true =>
      left
      refine hsame s t ?_
      rw [snapshotRevisions, snapshotRevisions, hpresent, h.present hpresent]
      simp only [Option.getD_some, h.visibleRevisions]
    | false =>
      have hempty : Candles.visibleRevisions t.tables.revisions c boundary = [] := by
        rw [h.visibleRevisions, hs.absent hpresent]
        rfl
      cases htpresent : t.present with
      | false =>
        left
        refine hsame s t ?_
        rw [snapshotRevisions, snapshotRevisions, hpresent, htpresent]
        rfl
      | true =>
        by_cases hbind : ∀ n ∈ [c.startTs, c.endTs, boundary, c.cap + 1],
            -9223372036854775808 ≤ n ∧ n ≤ 9223372036854775807
        · left
          refine hsame s t ?_
          rw [snapshotRevisions, snapshotRevisions, hpresent, htpresent, if_neg (by simp),
            if_pos rfl]
          simp only [Option.getD_some, hempty]
          rw [bindInts, if_pos hbind]
          have hcap := checkArgs_cap hc
          have hnone : capped c.cap ([] : List (Revision φ)) = .ok [] := by
            unfold capped
            simp only [List.take_nil, List.length_nil]
            exact if_neg (by omega)
          exact hnone
        · right
          refine ⟨rfl, ?_⟩
          rw [Candles.readSnapshot, hc]
          simp only [bind, Except.bind, snapshotRevisions, htpresent, Option.getD_some]
          rw [bindInts, if_neg hbind]
          rfl

/-! ## The views of a reachable store -/

/-- The current row of a candle comes from its revision of highest rank. -/
theorem Inv.current_row {s : Store φ} (h : Inv s) {key : CandleKey} {candle : Candle φ}
    (hcandle : s.tables.candles.row key = some candle) :
    ∃ r ∈ revisionsAt s.tables.revisions key, candle = r.candle ∧
      ∀ r' ∈ revisionsAt s.tables.revisions key, r' ≠ r → r'.rank < r.rank := by
  rw [h.current, Option.map_eq_some_iff] at hcandle
  obtain ⟨r, hr, rfl⟩ := hcandle
  have hmem : r ∈ revisionsAt s.tables.revisions key := List.argmax_mem hr
  refine ⟨r, hmem, rfl, fun r' hr' hne => ?_⟩
  refine lt_of_le_of_ne (List.le_of_mem_argmax hr' hr) fun hrank => hne ?_
  -- revisions of one rank share an id
  have hid : r'.revisionId = r.revisionId := by
    exact congrArg (fun rank => (ofLex (ofLex (ofLex rank).2).2).2) hrank
  obtain ⟨id, hrow⟩ := Table.mem_toList.1 (mem_revisionsAt.1 hmem).1
  obtain ⟨id', hrow'⟩ := Table.mem_toList.1 (mem_revisionsAt.1 hr').1
  rw [← h.keyed id r hrow] at hrow
  rw [← h.keyed id' r' hrow', hid, hrow] at hrow'
  exact (Option.some.inj hrow').symm

/-- The current rows, the series rows and the snapshots of a store follow its revision log. -/
theorem views_follow_log (py : Python ν φ) {s : Store φ} (hs : (candleStore py).Reachable s) :
    -- the current rows
    (∀ key, s.tables.candles.row key = none ↔ revisionsAt s.tables.revisions key = []) ∧
    (∀ key candle, s.tables.candles.row key = some candle →
      ∃ r ∈ revisionsAt s.tables.revisions key, candle = r.candle ∧
        ∀ r' ∈ revisionsAt s.tables.revisions key, r' ≠ r → r'.rank < r.rank) ∧
    -- the two readers
    (∀ maxReadRows a,
      publicFields (read py maxReadRows s a "v2") = publicFields (read py maxReadRows s a "v1") ∨
        s.present = false ∧ read py maxReadRows s a "v1" = .ok [] ∧
          ∃ e, checkArgs py maxReadRows a = .error e ∧ read py maxReadRows s a "v2" = .error e) ∧
    -- the series rows
    (∀ symbol timeframe row, s.tables.series.row (symbol, timeframe) = some row →
      row.Summarises s.tables.candles symbol timeframe) ∧
    (∀ key, (s.tables.candles.row key).isSome →
      (s.tables.series.row (key.1, key.2.1)).isSome) ∧
    -- a raising batch
    (∀ env batch e, (upsertCandles py env batch s).1 = .error e →
      (upsertCandles py env batch s).2.tables = s.tables) ∧
    -- snapshots
    (∀ maxReadRows a boundary purpose policy snapshot,
      readSnapshot py maxReadRows s a (some boundary) purpose policy = .ok snapshot →
      ∀ row ∈ snapshot.rows, ∃ r, LatestAt s boundary row r) ∧
    ∀ boundary calls t, (candleStore py).Steps s calls t →
      (∀ call ∈ calls, call.2.AvailableAfter py boundary call.1) →
      ∀ maxReadRows a purpose policy,
        readSnapshot py maxReadRows t a (some boundary) purpose policy =
            readSnapshot py maxReadRows s a (some boundary) purpose policy ∨
          s.present = false ∧
            readSnapshot py maxReadRows t a (some boundary) purpose policy =
              .error .overflowError := by
  have hinv := inv_of_reachable hs
  refine ⟨fun key => ?_, fun key candle => hinv.current_row, read_agrees hinv,
    fun symbol timeframe row hrow => (hinv.series symbol timeframe row hrow).summarises,
    hinv.listed, fun env batch e he => ?_, fun maxReadRows a boundary purpose policy snapshot h row
    hrow => readSnapshot_rows h hrow, fun boundary calls t hsteps hafter => ?_⟩
  · rw [hinv.current, Option.map_eq_none_iff, latest_eq_none]
  · rcases upsertCandles_cases py env batch s with ⟨_, -, htables, -⟩ | ⟨p, tables, _, result, -, -, hok⟩
    · exact htables
    · rw [hok] at he
      exact absurd he nofun
  · exact (Unseen.run hsteps hafter).readSnapshot hinv

/-! ## A store in exact arithmetic -/

/-- The conversions of JSON values with rational numbers. -/
def exactInt : JsonValue ℚ → Except PyError ℤ
  | .bool b => .ok b.toNat
  | .int n => .ok n
  | .float (.finite x) => .ok (if x < 0 then ⌈x⌉ else ⌊x⌋)
  | .float (.infinity _) => .error .overflowError
  | .float .nan => .error (.valueError "cannot convert float NaN to integer")
  | .str s => match s.toInt? with
    | some n => .ok n
    | none => .error (.valueError "invalid literal for int() with base 10")
  | _ => .error .typeError

def exactFloat : JsonValue ℚ → Except PyError (PyFloat ℚ)
  | .bool b => .ok (.finite b.toNat)
  | .int n => .ok (.finite n)
  | .float x => .ok x
  | .str s => match s.toInt? with
    | some n => .ok (.finite n)
    | none => .error (.valueError "could not convert string to float")
  | _ => .error .typeError

def exactRepr : PyFloat ℚ → List Char
  | .finite x => (toString x).toList
  | .infinity negative => (if negative then "-Infinity" else "Infinity").toList
  | .nan => "NaN".toList

def trim (l : List Char) : List Char :=
  ((l.dropWhile Char.isWhitespace).reverse.dropWhile Char.isWhitespace).reverse

theorem not_isWhitespace {c : Char} (h : isSymbolChar c ∨ isLowerChar c) :
    c.isWhitespace = false := by
  by_contra hc
  rw [Bool.not_eq_false, Char.isWhitespace] at hc
  simp only [Bool.or_eq_true, decide_eq_true_eq] at hc
  rcases hc with ((rfl | rfl) | rfl) | rfl <;> exact absurd h (by decide)

theorem trim_eq {l : List Char} (h : ∀ c ∈ l, isSymbolChar c ∨ isLowerChar c) : trim l = l := by
  have hkeep : ∀ l : List Char, (∀ c ∈ l, c.isWhitespace = false) →
      l.dropWhile Char.isWhitespace = l := by
    intro l hl
    cases l with
    | nil => rfl
    | cons c l => rw [List.dropWhile_cons_of_neg (by simp [hl c List.mem_cons_self])]
  have hl : ∀ c ∈ l, c.isWhitespace = false := fun c hc => not_isWhitespace (h c hc)
  rw [trim, hkeep l hl, hkeep l.reverse fun c hc => hl c (List.mem_reverse.1 hc), List.reverse_reverse]

theorem toUpper_eq {c : Char} (h : isSymbolChar c) : c.toUpper = c := by
  refine dif_neg ?_
  rintro ⟨hlow, hhigh⟩
  simp only [isSymbolChar, Char.isUpper, Char.isDigit, UInt32.le_iff_toNat_le, ge_iff_le,
    Bool.or_eq_true, Bool.and_eq_true, decide_eq_true_eq, beq_iff_eq] at h hlow hhigh
  rcases h with (⟨-, h⟩ | ⟨-, h⟩) | rfl
  · exact absurd (hlow.trans h) (by decide)
  · exact absurd (hlow.trans h) (by decide)
  · exact absurd hlow (by decide)

theorem toLower_eq {c : Char} (h : isLowerChar c) : c.toLower = c := by
  refine dif_neg ?_
  rintro ⟨hlow, hhigh⟩
  simp only [isLowerChar, Char.isLower, Char.isDigit, UInt32.le_iff_toNat_le, ge_iff_le,
    Bool.or_eq_true, Bool.and_eq_true, decide_eq_true_eq, beq_iff_eq] at h hlow hhigh
  rcases h with (⟨h, -⟩ | ⟨-, h⟩) | rfl
  · exact absurd (h.trans hhigh) (by decide)
  · exact absurd (hlow.trans h) (by decide)
  · exact absurd hhigh (by decide)

def exactPython : Python (JsonValue ℚ) ℚ where
  int := exactInt
  float := exactFloat
  str
    | .str s => s
    | .int n => toString n
    | .bool b => if b then "True" else "False"
    | value => String.ofList (value.dumps (Json.plain exactRepr))
  truthy
    | .null => false
    | .bool b => b
    | .int n => n ≠ 0
    | .float (.finite x) => x ≠ 0
    | .float _ => true
    | .str s => s ≠ ""
    | .arr items => !items.isEmpty
    | .obj members => !members.isEmpty
  isNone
    | .null => true
    | _ => false
  json := .ok
  isoformat _ := .error .overflowError
  strip t := String.ofList (trim t.toList)
  upper t := t.map Char.toUpper
  lower t := t.map Char.toLower
  quote t := "'" ++ t ++ "'"
  repr := exactRepr
  sha256 := Sha256.sha256
  strip_plain t h := by rw [trim_eq h, String.ofList_toList]
  upper_plain t h := by
    apply String.ext
    rw [String.toList_map]
    exact (List.map_congr_left fun c hc => toUpper_eq (h c hc)).trans (List.map_id _)
  lower_plain t h := by
    apply String.ext
    rw [String.toList_map]
    exact (List.map_congr_left fun c hc => toLower_eq (h c hc)).trans (List.map_id _)

/-- A minute bar with its close as the only price that moves. -/
def minuteRow (close : ℚ) : Row (JsonValue ℚ) :=
  [("ts", .int 60000), ("date", .str "1970-01-01T00:01:00+00:00"),
    ("open", .float (.finite 100)), ("high", .float (.finite 200)),
    ("low", .float (.finite 50)), ("close", .float (.finite close)), ("vol", .int 3)]

def minuteBatch (close : ℚ) (time : ℤ) : Env × Batch (JsonValue ℚ) :=
  (⟨0, time, fun _ => false⟩,
    ⟨"btc-usdt", "1m", [minuteRow close], "fixture", true, none, none, some time, some time⟩)

/-- A late row, a repeated one and a correction. -/
def revisedStore : Store ℚ :=
  (candleStore exactPython).run ⟨false, .empty⟩
    [minuteBatch 101 70000, minuteBatch 101 70000, minuteBatch 102 90000]

theorem revisedStore_reachable : (candleStore exactPython).Reachable revisedStore :=
  Machine.reachable_run _ rfl ⟨trivial, trivial, trivial, trivial⟩

theorem views_follow_log_revisedStore :
    (∀ key, revisedStore.tables.candles.row key = none ↔
      revisionsAt revisedStore.tables.revisions key = []) ∧
    ∀ maxReadRows a,
      publicFields (read exactPython maxReadRows revisedStore a "v2") =
          publicFields (read exactPython maxReadRows revisedStore a "v1") ∨
        revisedStore.present = false ∧ read exactPython maxReadRows revisedStore a "v1" = .ok [] ∧
          ∃ e, checkArgs exactPython maxReadRows a = .error e ∧
            read exactPython maxReadRows revisedStore a "v2" = .error e :=
  ⟨(views_follow_log exactPython revisedStore_reachable).1,
    (views_follow_log exactPython revisedStore_reachable).2.2.1⟩

end ResearchLab.Candles
