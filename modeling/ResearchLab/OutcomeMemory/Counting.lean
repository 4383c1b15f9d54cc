import Mathlib
import ResearchLab.OutcomeMemory.Training

/-!
# How often a paper outcome counts

A record of the index reads one aggregate, and every candidate of a cell may read the one of the
cell. A training row counts once in the summary of the index exactly where one candidate reads it.
-/
namespace ResearchLab.OutcomeMemory
open Foundation

variable (py : Python)

/-! ## Who reads a row -/

def names (id : String) (row : RowIdentity) : Bool := id ∈ row.candidateIds py

/-- A candidate reads the rows that name it, else those that name the candidate that was
validated, else those of its cell. -/
def readBy (ids : List RowIdentity) (lc : LifecycleCandidate) (row : RowIdentity) : Bool :=
  if ids.any (names py lc.sourceCandidateId) then names py lc.sourceCandidateId row
  else if ids.any (names py lc.validationCandidateId) then names py lc.validationCandidateId row
  else row.cellKey py ≠ "" ∧ row.cellKey py = trainingCellKey py lc.symbol lc.timeframe lc.family

/-- No row is read by two candidates. -/
def Apart (lifecycle : List LifecycleCandidate) (ids : List RowIdentity) : Prop :=
  ∀ row ∈ ids, (lifecycle.countP fun lc => readBy py ids lc row) ≤ 1

/-- The key of a cell has the three parts that the summary of the cells expects. -/
def PlainCells (ids : List RowIdentity) : Prop :=
  ∀ row ∈ ids, row.cellKey py ≠ "" → (splitBars (row.cellKey py)).length = 3

/-! ## What is counted -/

namespace TrainingRow

/-- What the row adds to the paper result. -/
def amount (row : TrainingRow) : ℚ := (row.pnl py).getD 0

def hasCell (row : TrainingRow) : Bool := row.identity.cellKey py ≠ ""

/-- The numbers that the selection of the rows asks for. -/
def isNumber : Json ℚ → Bool
  | .bool _ => false
  | v => (floatOrNone py v).isSome

def Eligible (row : TrainingRow) : Prop :=
  isNumber py row.netPct = true ∧ isNumber py row.paperPnlUsdt = true

end TrainingRow

/-- Half a unit of the last decimal for each rounding that is made: one for each row, one for each
cell and one at the end. -/
def roundingOf (rows : List TrainingRow) : ℚ := (2 * rows.length + 1) * (1 / 2 / 10 ^ 6)

/-- Each paper outcome counts at most once in the summary of the index, and each outcome with a
cell once in the summary of the cells. -/
structure CountsOnce (lifecycle : List LifecycleCandidate) (rows : List TrainingRow) : Prop where
  terminal : (summarizeMemory (buildMemoryIndex py lifecycle rows)).paperTerminalRows ≤
    rows.countP (·.hasResult py)
  pnl : ∃ counted : List TrainingRow, counted.Sublist rows ∧
    |(summarizeMemory (buildMemoryIndex py lifecycle rows)).paperPnlUsdt -
      (counted.map (·.amount py)).sum| ≤ roundingOf rows
  cellRows : (summarizeProductTrainingMemory py rows).summary.rows = rows.countP (·.hasCell py)
  cellTerminal : (summarizeProductTrainingMemory py rows).summary.terminalRows =
    rows.countP fun row => row.hasCell py && row.hasResult py
  cellPnl : |(summarizeProductTrainingMemory py rows).summary.paperPnlUsdt -
    sumWhere (·.hasCell py) (·.amount py) rows| ≤ roundingOf rows

variable {py}

/-! ## Aggregates -/

section Aggregates

variable {agg : TrainingAgg} {rows : List TrainingRow}

theorem foldl_rows : (rows.foldl (addTrainingRow py) agg).rows = agg.rows + rows.length := by
  induction rows generalizing agg with
  | nil => rfl
  | cons row rows ih =>
    rw [List.foldl_cons, ih, List.length_cons, addTrainingRow]
    dsimp only
    omega

theorem foldl_terminalRows : (rows.foldl (addTrainingRow py) agg).terminalRows =
    agg.terminalRows + rows.countP (·.hasResult py) := by
  induction rows generalizing agg with
  | nil => rfl
  | cons row rows ih =>
    rw [List.foldl_cons, ih, List.countP_cons, addTrainingRow]
    dsimp only
    omega

theorem foldl_paperPnl : (rows.foldl (addTrainingRow py) agg).paperPnlUsdt =
    (rows.filterMap (·.pnl py)).foldl (fun a x => roundTo 6 (a + x)) agg.paperPnlUsdt := by
  induction rows generalizing agg with
  | nil => rfl
  | cons row rows ih =>
    rw [List.foldl_cons, ih, addTrainingRow]
    cases hpnl : row.pnl py <;> simp [hpnl, addRounded]

theorem sum_filterMap_pnl : (rows.filterMap (·.pnl py)).sum = (rows.map (·.amount py)).sum := by
  induction rows with
  | nil => rfl
  | cons row rows ih =>
    cases hpnl : row.pnl py <;> simp [hpnl, ih, TrainingRow.amount]

/-- What the aggregate of rows says of their results. -/
theorem summary_terminalRows :
    (trainingSummary (some (rows.foldl (addTrainingRow py) emptyTrainingAgg))).terminalRows =
      rows.countP (·.hasResult py) := by
  simp [trainingSummary, foldl_terminalRows, emptyTrainingAgg]

theorem summary_paperPnl :
    (trainingSummary (some (rows.foldl (addTrainingRow py) emptyTrainingAgg))).paperPnlUsdt =
      (rows.foldl (addTrainingRow py) emptyTrainingAgg).paperPnlUsdt := by
  change roundTo 6 _ = _
  rw [foldl_paperPnl]
  exact roundTo_foldl (roundTo_zero 6) _

theorem abs_paperPnl_sub_le :
    |(rows.foldl (addTrainingRow py) emptyTrainingAgg).paperPnlUsdt - (rows.map (·.amount py)).sum| ≤
      rows.length * (1 / 2 / 10 ^ 6) := by
  have h := abs_foldl_roundTo_sub_le 6 (rows.filterMap (·.pnl py)) 0
  have hlength : ((rows.filterMap (·.pnl py)).length : ℚ) ≤ rows.length := by
    exact_mod_cast List.length_filterMap_le _ _
  rw [foldl_paperPnl, ← sum_filterMap_pnl]
  rw [zero_add] at h
  refine h.trans ?_
  gcongr

/-- Without a result there is nothing to add. -/
theorem paperPnl_of_no_result (h : rows.countP (·.hasResult py) = 0) :
    (rows.foldl (addTrainingRow py) emptyTrainingAgg).paperPnlUsdt = 0 := by
  have hnone : rows.filterMap (·.pnl py) = [] := by
    rw [List.filterMap_eq_nil_iff]
    intro row hrow
    have hresult := List.countP_eq_zero.1 h row hrow
    simp only [TrainingRow.hasResult, Bool.or_eq_true, not_or, Option.not_isSome_iff_eq_none] at hresult
    exact hresult.1
  rw [foldl_paperPnl, hnone]
  rfl

end Aggregates

/-! ## The records of the index -/

section Index

variable {rows : List TrainingRow} {lc : LifecycleCandidate} {lifecycle : List LifecycleCandidate}

variable (py) in
/-- The rows that a candidate reads. -/
def reads (rows : List TrainingRow) (lc : LifecycleCandidate) (row : TrainingRow) : Bool :=
  readBy py (rows.map TrainingRow.identity) lc row.identity

theorem nodup_keyList (key : String) : (keyList key).Nodup := by
  unfold keyList
  split_ifs <;> simp

theorem mem_keyList {k key : String} : k ∈ keyList key ↔ key ≠ "" ∧ key = k := by
  unfold keyList
  split_ifs with h
  · simp [h]
  · simp [h, eq_comm]

theorem byCandidate_row {id : String} : (trainingMemory py rows).byCandidate.row id =
    if rows.any fun row => names py id row.identity then
      some ((rows.filter fun row => names py id row.identity).foldl (addTrainingRow py)
        emptyTrainingAgg)
    else none := by
  have hkeys : ∀ row : TrainingRow, (row.identity.candidateIds py).Nodup :=
    fun row => List.nodup_dedup _
  by_cases h : ∃ row ∈ rows, id ∈ row.identity.candidateIds py
  · rw [if_pos (by simpa [names] using h)]
    exact aggregate_row_some hkeys h
  · rw [if_neg (by simpa [names] using h)]
    exact aggregate_row_none hkeys fun row hrow hid => h ⟨row, hrow, hid⟩

theorem byCell_row {key : String} : (trainingMemory py rows).byCell.row key =
    if rows.any fun row => row.identity.cellKey py ≠ "" ∧ row.identity.cellKey py = key then
      some ((rows.filter fun row =>
        row.identity.cellKey py ≠ "" ∧ row.identity.cellKey py = key).foldl (addTrainingRow py)
          emptyTrainingAgg)
    else none := by
  have hkeys : ∀ row : TrainingRow, (keyList (row.identity.cellKey py)).Nodup :=
    fun row => nodup_keyList _
  have hfilter : (rows.filter fun row => key ∈ keyList (row.identity.cellKey py)) =
      rows.filter fun row => row.identity.cellKey py ≠ "" ∧ row.identity.cellKey py = key :=
    List.filter_congr fun row _ => by simp only [mem_keyList]
  by_cases h : ∃ row ∈ rows, key ∈ keyList (row.identity.cellKey py)
  · rw [if_pos (by simpa [mem_keyList] using h), ← hfilter]
    exact aggregate_row_some hkeys h
  · rw [if_neg (by simpa [mem_keyList] using h)]
    exact aggregate_row_none hkeys fun row hrow hkey => h ⟨row, hrow, hkey⟩

/-- The aggregate of a candidate is that of the rows it reads. -/
theorem aggregateFor_trainingMemory : aggregateFor py (trainingMemory py rows) lc =
    if rows.any (reads py rows lc) then
      some ((rows.filter (reads py rows lc)).foldl (addTrainingRow py) emptyTrainingAgg)
    else none := by
  have hany : ∀ id, (rows.map TrainingRow.identity).any (names py id) =
      rows.any fun row => names py id row.identity := fun id => by
    rw [List.any_map]
    rfl
  unfold aggregateFor
  rw [byCandidate_row, byCandidate_row, byCell_row]
  by_cases hsource : rows.any fun row => names py lc.sourceCandidateId row.identity
  · have hreads : reads py rows lc = fun row => names py lc.sourceCandidateId row.identity := by
      funext row
      rw [reads, readBy, hany, if_pos hsource]
    rw [hreads, if_pos hsource, Option.some_or, Option.some_or]
  · rw [if_neg hsource, Option.none_or]
    by_cases hvalidation : rows.any fun row => names py lc.validationCandidateId row.identity
    · have hreads : reads py rows lc =
          fun row => names py lc.validationCandidateId row.identity := by
        funext row
        rw [reads, readBy, hany, if_neg hsource, hany, if_pos hvalidation]
      rw [hreads, if_pos hvalidation, Option.some_or]
    · have hreads : reads py rows lc = fun row : TrainingRow => row.identity.cellKey py ≠ "" ∧
          row.identity.cellKey py = trainingCellKey py lc.symbol lc.timeframe lc.family := by
        funext row
        rw [reads, readBy, hany, if_neg hsource, hany, if_neg hvalidation]
      rw [hreads, if_neg hvalidation, Option.none_or]

theorem filter_eq_nil_of_not_any {p : TrainingRow → Bool} (h : ¬ rows.any p = true) :
    rows.filter p = [] := by
  rw [List.filter_eq_nil_iff]
  exact fun row hrow hp => h (List.any_eq_true.2 ⟨row, hrow, hp⟩)

theorem record_terminalRows :
    (memoryRecord py (trainingMemory py rows) lc).paperTerminalRows =
      sumWhere (reads py rows lc) (fun row => if row.hasResult py then 1 else 0) rows := by
  have hsum : sumWhere (reads py rows lc) (fun row => if row.hasResult py then 1 else 0) rows =
      (rows.filter (reads py rows lc)).countP (·.hasResult py) := by
    rw [sumWhere, sum_map_indicator (TrainingRow.hasResult py), smul_eq_mul, mul_one]
  rw [hsum, memoryRecord, aggregateFor_trainingMemory]
  split_ifs with h
  · exact summary_terminalRows
  · rw [filter_eq_nil_of_not_any h]
    rfl

theorem record_paperPnl :
    |(memoryRecord py (trainingMemory py rows) lc).paperPnlUsdt -
        sumWhere (reads py rows lc) (·.amount py) rows| ≤
      (rows.countP (reads py rows lc)) * (1 / 2 / 10 ^ 6) := by
  rw [memoryRecord, aggregateFor_trainingMemory, List.countP_eq_length_filter, sumWhere]
  split_ifs with h
  · rw [summary_paperPnl]
    exact abs_paperPnl_sub_le
  · rw [filter_eq_nil_of_not_any h]
    simp [trainingSummary]

theorem record_paperPnl_of_no_terminal
    (h : (memoryRecord py (trainingMemory py rows) lc).paperTerminalRows = 0) :
    (memoryRecord py (trainingMemory py rows) lc).paperPnlUsdt = 0 := by
  rw [memoryRecord, aggregateFor_trainingMemory] at h ⊢
  split_ifs at h ⊢ with hany
  · rw [summary_paperPnl]
    exact paperPnl_of_no_result (summary_terminalRows.symm.trans h)
  · rfl

/-! ## The summary of the index -/

/-- The terminal rows of the summary: each row with a result as often as it is read. -/
theorem summary_terminal :
    (summarizeMemory (buildMemoryIndex py lifecycle rows)).paperTerminalRows =
      (lifecycle.map fun lc => sumWhere (reads py rows lc)
        (fun row => if row.hasResult py then 1 else 0) rows).sum := by
  have hall : (summarizeMemory (buildMemoryIndex py lifecycle rows)).paperTerminalRows =
      ((buildMemoryIndex py lifecycle rows).map MemoryRecord.paperTerminalRows).sum := by
    refine sumWhere_of_zero fun r _ hr => ?_
    simpa using hr
  rw [hall, buildMemoryIndex, List.map_map]
  simp only [Function.comp_def, record_terminalRows]

/-- How often the rows are read. -/
def readings (py : Python) (lifecycle : List LifecycleCandidate) (rows : List TrainingRow) : ℕ :=
  (lifecycle.map fun lc => rows.countP (reads py rows lc)).sum

/-- The paper result of the summary, up to a rounding for each reading and one at the end. -/
theorem abs_summary_pnl_sub_le :
    |(summarizeMemory (buildMemoryIndex py lifecycle rows)).paperPnlUsdt -
        (lifecycle.map fun lc => sumWhere (reads py rows lc) (·.amount py) rows).sum| ≤
      (readings py lifecycle rows + 1) * (1 / 2 / 10 ^ 6) := by
  have hall : (summarizeMemory (buildMemoryIndex py lifecycle rows)).paperPnlUsdt =
      roundTo 6 ((lifecycle.map fun lc =>
        (memoryRecord py (trainingMemory py rows) lc).paperPnlUsdt).sum) := by
    have hsum : sumWhere (fun r => 0 < r.paperTerminalRows) MemoryRecord.paperPnlUsdt
        (buildMemoryIndex py lifecycle rows) =
        ((buildMemoryIndex py lifecycle rows).map MemoryRecord.paperPnlUsdt).sum := by
      refine sumWhere_of_zero fun r hr hzero => ?_
      obtain ⟨lc, -, rfl⟩ := List.mem_map.1 hr
      exact record_paperPnl_of_no_terminal (by simpa using hzero)
    have hmap : ((buildMemoryIndex py lifecycle rows).map MemoryRecord.paperPnlUsdt).sum =
        (lifecycle.map fun lc =>
          (memoryRecord py (trainingMemory py rows) lc).paperPnlUsdt).sum := by
      rw [buildMemoryIndex, List.map_map]
      rfl
    exact congrArg (roundTo 6) (hsum.trans hmap)
  have hround := abs_roundTo_sub_le 6 ((lifecycle.map fun lc =>
    (memoryRecord py (trainingMemory py rows) lc).paperPnlUsdt).sum)
  have hnear := abs_sum_sub_sum_le
    (fun lc => (memoryRecord py (trainingMemory py rows) lc).paperPnlUsdt)
    (fun lc => sumWhere (reads py rows lc) (·.amount py) rows)
    (fun lc => ((rows.countP (reads py rows lc) : ℕ) : ℚ) * (1 / 2 / 10 ^ 6)) lifecycle
    fun lc _ => record_paperPnl
  have herror : (lifecycle.map fun lc =>
      ((rows.countP (reads py rows lc) : ℕ) : ℚ) * (1 / 2 / 10 ^ 6)).sum =
      (readings py lifecycle rows : ℚ) * (1 / 2 / 10 ^ 6) := by
    rw [List.sum_map_mul_right, readings, Nat.cast_list_sum, List.map_map]
    rfl
  rw [herror] at hnear
  rw [hall]
  rw [abs_le] at hround hnear ⊢
  constructor <;> linarith [hround.1, hround.2, hnear.1, hnear.2]

end Index

/-! ## The summary of the cells -/

section Cells

variable {rows : List TrainingRow}

/-- The cell of a row, if the summary of the cells takes its key. -/
def plainKey (py : Python) (row : TrainingRow) : Option String :=
  if row.identity.cellKey py ≠ "" ∧ (splitBars (row.identity.cellKey py)).length = 3 then
    some (row.identity.cellKey py)
  else none

theorem plainKey_eq_some {row : TrainingRow} {k : String} :
    plainKey py row = some k ↔ row.identity.cellKey py ≠ "" ∧
      (splitBars (row.identity.cellKey py)).length = 3 ∧ row.identity.cellKey py = k := by
  unfold plainKey
  split_ifs with h
  · simp [h]
  · simp only [false_iff]
    exact fun hk => h ⟨hk.1, hk.2.1⟩

/-- The keys of the cells in the summary. -/
def plainKeys (py : Python) (rows : List TrainingRow) : List String :=
  (trainingMemory py rows).byCell.keys.filter fun k => (splitBars k).length = 3

theorem nodup_plainKeys : (plainKeys py rows).Nodup :=
  (trainingMemory py rows).byCell.nodup.filter _

theorem mem_plainKeys {k : String} : k ∈ plainKeys py rows ↔
    ∃ row ∈ rows, plainKey py row = some k := by
  have hkeys : k ∈ (trainingMemory py rows).byCell.keys ↔
      ∃ row ∈ rows, k ∈ keyList (row.identity.cellKey py) :=
    mem_aggregate_keys fun row => nodup_keyList _
  simp only [plainKeys, List.mem_filter, hkeys, mem_keyList, plainKey_eq_some, decide_eq_true_eq]
  constructor
  · rintro ⟨⟨row, hrow, hne, rfl⟩, hthree⟩
    exact ⟨row, hrow, hne, hthree, rfl⟩
  · rintro ⟨row, hrow, hne, hthree, rfl⟩
    exact ⟨⟨row, hrow, hne, rfl⟩, hthree⟩

/-- The aggregate of a cell is that of its rows. -/
theorem entriesOf_byCell : entriesOf 3 (trainingMemory py rows).byCell =
    (plainKeys py rows).map fun k =>
      (k, (rows.filter fun row => plainKey py row = some k).foldl (addTrainingRow py)
        emptyTrainingAgg) := by
  have hentries : ∀ k ∈ plainKeys py rows,
      ((trainingMemory py rows).byCell.row k).map (fun agg => (k, agg)) =
        some (k, (rows.filter fun row => plainKey py row = some k).foldl (addTrainingRow py)
          emptyTrainingAgg) := by
    intro k hk
    obtain ⟨row, hrow, hkey⟩ := mem_plainKeys.1 hk
    obtain ⟨hne, hthree, hcell⟩ := plainKey_eq_some.1 hkey
    have hany : rows.any fun row => row.identity.cellKey py ≠ "" ∧ row.identity.cellKey py = k :=
      List.any_eq_true.2 ⟨row, hrow, by simp [← hcell, hne]⟩
    have hfilter : (rows.filter fun row =>
        row.identity.cellKey py ≠ "" ∧ row.identity.cellKey py = k) =
        rows.filter fun row => plainKey py row = some k := by
      refine List.filter_congr fun row' _ => ?_
      rw [decide_eq_decide, plainKey_eq_some]
      constructor
      · rintro ⟨hne', hk'⟩
        exact ⟨hne', by rw [hk', ← hcell]; exact hthree, hk'⟩
      · exact fun h => ⟨h.1, h.2.2⟩
    rw [byCell_row, if_pos hany, hfilter]
    rfl
  have hfilter : (trainingMemory py rows).byCell.entries.filter (fun e => (splitBars e.1).length = 3) =
      (plainKeys py rows).filterMap fun k =>
        ((trainingMemory py rows).byCell.row k).map (fun agg => (k, agg)) := by
    rw [Table.entries, List.filter_filterMap, plainKeys, List.filterMap_filter]
    refine List.filterMap_congr fun k _ => ?_
    cases (trainingMemory py rows).byCell.row k with
    | none => simp
    | some agg => by_cases h : (splitBars k).length = 3 <;> simp [h]
  rw [entriesOf, hfilter, List.filterMap_congr hentries]
  exact congrFun List.filterMap_eq_map' _

/-- The rows whose cell is in the summary. -/
theorem any_plainKeys {row : TrainingRow} (hrow : row ∈ rows) :
    ((plainKeys py rows).any fun k => plainKey py row = some k) = (plainKey py row).isSome := by
  cases hkey : plainKey py row with
  | none => simp
  | some k =>
    have hk : k ∈ plainKeys py rows := mem_plainKeys.2 ⟨row, hrow, hkey⟩
    simpa using hk

theorem sum_plainKeys {M : Type} [AddCommMonoid M] (f : TrainingRow → M) :
    ((plainKeys py rows).map fun k => sumWhere (fun row => plainKey py row = some k) f rows).sum =
      sumWhere (fun row => (plainKey py row).isSome) f rows := by
  rw [sum_groups nodup_plainKeys, sumWhere, sumWhere]
  rw [List.filter_congr fun row hrow => any_plainKeys hrow]

/-- Merged aggregates. -/
theorem foldl_merge_rows {cells : List (String × TrainingAgg)} {agg : TrainingAgg} :
    (cells.foldl (fun total e => mergeTrainingAgg total e.2) agg).rows =
      agg.rows + (cells.map fun e => e.2.rows).sum := by
  induction cells generalizing agg with
  | nil => rfl
  | cons e cells ih =>
    rw [List.foldl_cons, ih, List.map_cons, List.sum_cons, mergeTrainingAgg]
    dsimp only
    omega

theorem foldl_merge_terminalRows {cells : List (String × TrainingAgg)} {agg : TrainingAgg} :
    (cells.foldl (fun total e => mergeTrainingAgg total e.2) agg).terminalRows =
      agg.terminalRows + (cells.map fun e => e.2.terminalRows).sum := by
  induction cells generalizing agg with
  | nil => rfl
  | cons e cells ih =>
    rw [List.foldl_cons, ih, List.map_cons, List.sum_cons, mergeTrainingAgg]
    dsimp only
    omega

theorem foldl_merge_paperPnl {cells : List (String × TrainingAgg)} {agg : TrainingAgg} :
    (cells.foldl (fun total e => mergeTrainingAgg total e.2) agg).paperPnlUsdt =
      (cells.map fun e => e.2.paperPnlUsdt).foldl (fun a x => roundTo 6 (a + x))
        agg.paperPnlUsdt := by
  induction cells generalizing agg with
  | nil => rfl
  | cons e cells ih => exact ih

theorem product_rows : (summarizeProductTrainingMemory py rows).summary.rows =
    rows.countP fun row => (plainKey py row).isSome := by
  have hmerge : (summarizeProductTrainingMemory py rows).summary.rows =
      ((entriesOf 3 (trainingMemory py rows).byCell).map fun e => e.2.rows).sum :=
    foldl_merge_rows.trans (Nat.zero_add _)
  rw [hmerge, entriesOf_byCell, List.map_map, ← sumWhere_const_one, ← sum_plainKeys]
  congr 1
  refine List.map_congr_left fun k _ => ?_
  simp [foldl_rows, emptyTrainingAgg, sumWhere]

theorem product_terminalRows : (summarizeProductTrainingMemory py rows).summary.terminalRows =
    rows.countP fun row => (plainKey py row).isSome && row.hasResult py := by
  have hmerge : (summarizeProductTrainingMemory py rows).summary.terminalRows =
      ((entriesOf 3 (trainingMemory py rows).byCell).map fun e => e.2.terminalRows).sum :=
    foldl_merge_terminalRows.trans (Nat.zero_add _)
  have hcount : (rows.countP fun row => (plainKey py row).isSome && row.hasResult py) =
      sumWhere (fun row => (plainKey py row).isSome) (fun row => if row.hasResult py then 1 else 0)
        rows := by
    rw [sumWhere, sum_map_indicator (TrainingRow.hasResult py), smul_eq_mul, mul_one,
      List.countP_filter]
    exact List.countP_congr fun row _ => by simp [and_comm]
  rw [hmerge, entriesOf_byCell, List.map_map, hcount, ← sum_plainKeys]
  congr 1
  refine List.map_congr_left fun k _ => ?_
  simp only [Function.comp_def, foldl_terminalRows, emptyTrainingAgg, zero_add]
  rw [sumWhere, sum_map_indicator (TrainingRow.hasResult py), smul_eq_mul, mul_one]

theorem length_plainKeys_le : (plainKeys py rows).length ≤ rows.countP fun row =>
    (plainKey py row).isSome := by
  have hsum : ((plainKeys py rows).map fun k =>
      sumWhere (fun row => plainKey py row = some k) (fun _ => 1) rows).sum =
      rows.countP fun row => (plainKey py row).isSome := by
    rw [sum_plainKeys, sumWhere_const_one]
  rw [← hsum, ← List.length_map fun k =>
    sumWhere (fun row => plainKey py row = some k) (fun _ => (1 : ℕ)) rows]
  refine List.length_le_sum_of_one_le _ fun n hn => ?_
  obtain ⟨k, hk, rfl⟩ := List.mem_map.1 hn
  obtain ⟨row, hrow, hkey⟩ := mem_plainKeys.1 hk
  rw [sumWhere_const_one]
  exact List.countP_pos_iff.2 ⟨row, hrow, by simpa using hkey⟩

/-- The paper result of the cells, up to a rounding for each row and one for each cell. -/
theorem abs_product_pnl_sub_le :
    |(summarizeProductTrainingMemory py rows).summary.paperPnlUsdt -
        sumWhere (fun row => (plainKey py row).isSome) (·.amount py) rows| ≤ roundingOf rows := by
  set agg : String → TrainingAgg := fun k =>
    (rows.filter fun row => plainKey py row = some k).foldl (addTrainingRow py) emptyTrainingAgg
    with hagg
  have hcells : (entriesOf 3 (trainingMemory py rows).byCell).map (fun e => e.2.paperPnlUsdt) =
      (plainKeys py rows).map fun k => (agg k).paperPnlUsdt := by
    rw [entriesOf_byCell, List.map_map]
    rfl
  have hmerge : (summarizeProductTrainingMemory py rows).summary.paperPnlUsdt =
      ((plainKeys py rows).map fun k => (agg k).paperPnlUsdt).foldl
        (fun a x => roundTo 6 (a + x)) 0 := by
    rw [← hcells]
    exact (congrArg (roundTo 6) foldl_merge_paperPnl).trans (roundTo_foldl (roundTo_zero 6) _)
  have hround := abs_foldl_roundTo_sub_le 6 ((plainKeys py rows).map fun k => (agg k).paperPnlUsdt) 0
  have hnear := abs_sum_sub_sum_le (fun k => (agg k).paperPnlUsdt)
    (fun k => sumWhere (fun row => plainKey py row = some k) (·.amount py) rows)
    (fun k => ((rows.countP fun row => plainKey py row = some k : ℕ) : ℚ) * (1 / 2 / 10 ^ 6))
    (plainKeys py rows) fun k _ => by
      rw [List.countP_eq_length_filter]
      exact abs_paperPnl_sub_le
  have herror : ((plainKeys py rows).map fun k =>
      ((rows.countP fun row => plainKey py row = some k : ℕ) : ℚ) * (1 / 2 / 10 ^ 6)).sum =
      ((rows.countP fun row => (plainKey py row).isSome : ℕ) : ℚ) * (1 / 2 / 10 ^ 6) := by
    rw [List.sum_map_mul_right, ← sumWhere_const_one, ← sum_plainKeys]
    simp only [sumWhere_const_one]
    rw [Nat.cast_list_sum, List.map_map]
    rfl
  have hkeys : ((plainKeys py rows).length : ℚ) ≤ rows.length := by
    exact_mod_cast length_plainKeys_le.trans List.countP_le_length
  have hrows : ((rows.countP fun row => (plainKey py row).isSome : ℕ) : ℚ) ≤ rows.length := by
    exact_mod_cast List.countP_le_length
  rw [sum_plainKeys, herror] at hnear
  rw [List.length_map, zero_add] at hround
  rw [hmerge, roundingOf]
  rw [abs_le] at hround hnear ⊢
  constructor <;> linarith [hround.1, hround.2, hnear.1, hnear.2]

end Cells

/-! ## When each outcome counts once -/

section Main

variable {lifecycle : List LifecycleCandidate} {rows : List TrainingRow} {ids : List RowIdentity}

theorem plainKey_isSome_of_plainCells (h : PlainCells py (rows.map TrainingRow.identity))
    {row : TrainingRow} (hrow : row ∈ rows) : (plainKey py row).isSome = row.hasCell py := by
  have hthree := h row.identity (List.mem_map_of_mem hrow)
  unfold plainKey TrainingRow.hasCell
  by_cases hcell : row.identity.cellKey py = ""
  · simp [hcell]
  · simp [hcell, hthree hcell]

/-- Where no row is read twice and the cells have plain keys, each outcome counts once. -/
theorem countsOnce_of_apart (hapart : Apart py lifecycle (rows.map TrainingRow.identity))
    (hcells : PlainCells py (rows.map TrainingRow.identity)) : CountsOnce py lifecycle rows := by
  have hone : ∀ row ∈ rows, lifecycle.countP (fun lc => reads py rows lc row) ≤ 1 :=
    fun row hrow => hapart row.identity (List.mem_map_of_mem hrow)
  have hplain : ∀ row ∈ rows, (plainKey py row).isSome = row.hasCell py :=
    fun row hrow => plainKey_isSome_of_plainCells hcells hrow
  refine ⟨?_, ?_, ?_, ?_, ?_⟩
  · rw [summary_terminal, sum_sumWhere_of_le_one hone, sumWhere,
      sum_map_indicator (TrainingRow.hasResult py), smul_eq_mul, mul_one]
    exact List.filter_sublist.countP_le
  · refine ⟨rows.filter fun row => lifecycle.any fun lc => reads py rows lc row,
      List.filter_sublist, ?_⟩
    have hreadings : (readings py lifecycle rows : ℚ) ≤ rows.length := by
      have hsum : readings py lifecycle rows =
          rows.countP fun row => lifecycle.any fun lc => reads py rows lc row := by
        have h := sum_sumWhere_of_le_one hone fun _ => 1
        simpa only [readings, sumWhere_const_one] using h
      rw [hsum]
      exact_mod_cast List.countP_le_length
    have hnear := @abs_summary_pnl_sub_le py rows lifecycle
    rw [sum_sumWhere_of_le_one hone, sumWhere] at hnear
    refine hnear.trans ?_
    rw [roundingOf]
    have hlength : (0 : ℚ) ≤ rows.length := by positivity
    gcongr
    linarith
  · rw [product_rows]
    exact List.countP_congr fun row hrow => by rw [hplain row hrow]
  · rw [product_terminalRows]
    exact List.countP_congr fun row hrow => by rw [hplain row hrow]
  · have h := @abs_product_pnl_sub_le py rows
    rwa [sumWhere, List.filter_congr hplain, ← sumWhere] at h

/-- A cell whose key has other parts is missing in the summary. -/
theorem plainCells_of_cellRows (h : (summarizeProductTrainingMemory py rows).summary.rows =
    rows.countP (·.hasCell py)) : PlainCells py (rows.map TrainingRow.identity) := by
  have hplain : ∀ row, (plainKey py row).isSome = true → row.hasCell py = true := by
    intro row hkey
    obtain ⟨k, hk⟩ := Option.isSome_iff_exists.1 hkey
    simpa [TrainingRow.hasCell] using (plainKey_eq_some.1 hk).1
  have hsub : (rows.filter fun row => (plainKey py row).isSome).Sublist
      (rows.filter (·.hasCell py)) := List.monotone_filter_right rows hplain
  have heq := hsub.eq_of_length (by
    rw [← List.countP_eq_length_filter, ← List.countP_eq_length_filter, ← h, product_rows])
  intro identity hid hcell
  obtain ⟨row, hrow, rfl⟩ := List.mem_map.1 hid
  have hmem : row ∈ rows.filter (·.hasCell py) :=
    List.mem_filter.2 ⟨hrow, by simpa [TrainingRow.hasCell] using hcell⟩
  rw [← heq, List.mem_filter] at hmem
  obtain ⟨k, hk⟩ := Option.isSome_iff_exists.1 hmem.2
  exact (plainKey_eq_some.1 hk).2.1

/-- An eligible row with a paper result. -/
def rowWith (identity : RowIdentity) (amount : ℚ) : TrainingRow :=
  ⟨identity, .float amount, .float 0, .null, .null, .null⟩

theorem rowWith_eligible (identity : RowIdentity) (amount : ℚ) :
    (rowWith identity amount).Eligible py := ⟨rfl, rfl⟩

theorem readings_le : readings py lifecycle rows ≤ lifecycle.length * rows.length := by
  have h := List.sum_le_card_nsmul (lifecycle.map fun lc => rows.countP (reads py rows lc))
    rows.length fun n hn => by
      obtain ⟨lc, -, rfl⟩ := List.mem_map.1 hn
      exact List.countP_le_length
  rwa [List.length_map, smul_eq_mul] at h

/-- Where every result is large and belongs to a row that is read twice, the summary is not the
sum over any of the rows. -/
theorem pnl_too_large (hnonneg : ∀ row ∈ rows, 0 ≤ row.amount py)
    (htwice : ∀ row ∈ rows, row.amount py ≠ 0 →
      2 ≤ lifecycle.countP fun lc => reads py rows lc row)
    (hlarge : (lifecycle.length * rows.length + 2 * rows.length + 2 : ℚ) <
      (rows.map (·.amount py)).sum) : ¬ CountsOnce py lifecycle rows := by
  rintro ⟨-, ⟨counted, hsub, hpnl⟩, -⟩
  have hnear := @abs_summary_pnl_sub_le py rows lifecycle
  have hreadings : (readings py lifecycle rows : ℚ) ≤ lifecycle.length * rows.length := by
    exact_mod_cast readings_le
  have hcounted : (counted.map (·.amount py)).sum ≤ (rows.map (·.amount py)).sum := by
    refine (hsub.map _).sum_le_sum fun x hx => ?_
    obtain ⟨row, hrow, rfl⟩ := List.mem_map.1 hx
    exact hnonneg row hrow
  have htotal : 2 * (rows.map (·.amount py)).sum ≤
      (lifecycle.map fun lc => sumWhere (reads py rows lc) (·.amount py) rows).sum := by
    rw [sum_sumWhere, ← List.sum_map_mul_left]
    refine List.sum_le_sum fun row hrow => ?_
    rw [nsmul_eq_mul]
    rcases eq_or_ne (row.amount py) 0 with hzero | hne
    · simp [hzero]
    · have htwo : (2 : ℚ) ≤ (lifecycle.countP fun lc => reads py rows lc row : ℕ) := by
        exact_mod_cast htwice row hrow hne
      have := hnonneg row hrow
      gcongr
  have hn : (0 : ℚ) ≤ rows.length := by positivity
  rw [roundingOf] at hpnl
  rw [abs_le] at hpnl hnear
  -- the error of the summary and the rounding that is allowed stay far below one unit a row
  nlinarith [hpnl.1, hpnl.2, hnear.1, hnear.2]

theorem apart_of_countsOnce
    (h : ∀ rows : List TrainingRow, rows.map TrainingRow.identity = ids →
      (∀ row ∈ rows, row.Eligible py) → CountsOnce py lifecycle rows) :
    Apart py lifecycle ids := by
  classical
  intro identity hid
  by_contra htwice
  set unit : ℚ := lifecycle.length * ids.length + 2 * ids.length + 3
  have hunit : 0 < unit := by positivity
  set rows := ids.map fun id => rowWith id (if id = identity then unit else 0) with hrows
  have hidentity : rows.map TrainingRow.identity = ids := by
    rw [hrows, List.map_map]
    exact List.map_id' _
  have hlength : rows.length = ids.length := List.length_map _
  have hamount : ∀ row ∈ rows, row.amount py = if row.identity = identity then unit else 0 := by
    intro row hrow
    obtain ⟨id, -, rfl⟩ := List.mem_map.1 hrow
    rfl
  refine pnl_too_large (fun row hrow => ?_) (fun row hrow hne => ?_) ?_
    (h rows hidentity fun row hrow => ?_)
  · rw [hamount row hrow]
    split_ifs
    · exact hunit.le
    · exact le_rfl
  · rw [hamount row hrow] at hne
    have hrow : row.identity = identity := by
      by_contra hother
      exact hne (if_neg hother)
    simp only [reads, hidentity, hrow]
    omega
  · have hmem : rowWith identity unit ∈ rows :=
      List.mem_map.2 ⟨identity, hid, by rw [if_pos rfl]⟩
    have hle : unit ≤ (rows.map (·.amount py)).sum := by
      refine List.single_le_sum (fun x hx => ?_) unit (List.mem_map.2 ⟨_, hmem, rfl⟩)
      obtain ⟨row, hrow, rfl⟩ := List.mem_map.1 hx
      rw [hamount row hrow]
      split_ifs
      · exact hunit.le
      · exact le_rfl
    rw [hlength]
    linarith
  · obtain ⟨id, -, rfl⟩ := List.mem_map.1 hrow
    exact rowWith_eligible _ _

/-- The outcomes of eligible rows count once, whatever they are, exactly where no row is read by
two candidates and the cells have plain keys. -/
theorem countsOnce_iff (py : Python) (lifecycle : List LifecycleCandidate)
    (ids : List RowIdentity) :
    (∀ rows : List TrainingRow, rows.map TrainingRow.identity = ids →
      (∀ row ∈ rows, row.Eligible py) → CountsOnce py lifecycle rows) ↔
      Apart py lifecycle ids ∧ PlainCells py ids := by
  constructor
  · intro h
    refine ⟨apart_of_countsOnce h, ?_⟩
    have hidentity : (ids.map (rowWith · 0)).map TrainingRow.identity = ids := by
      rw [List.map_map]
      exact List.map_id' _
    rw [← hidentity]
    refine plainCells_of_cellRows (h _ hidentity fun row hrow => ?_).cellRows
    obtain ⟨id, -, rfl⟩ := List.mem_map.1 hrow
    exact rowWith_eligible _ _
  · rintro ⟨hapart, hcells⟩ rows rfl -
    exact countsOnce_of_apart hapart hcells

end Main

/-! ## Two candidates of one cell -/

/-- Texts without blanks, in capitals. -/
def plainPython : Python := ⟨fun _ => "", id, id, fun _ => none⟩

def sampleCandidates : List LifecycleCandidate :=
  [⟨"uc1", "candidate1", "", "BTC_USDT", "1h", "momentum_breakout"⟩,
    ⟨"uc2", "candidate2", "", "BTC_USDT", "1h", "momentum_breakout"⟩]

/-- A paper outcome of the cell that names no candidate. -/
def sampleRow : TrainingRow where
  identity := ⟨.null, .null, .str "BTC-USDT", .null, .str "1h", .str "momentum_breakout", .null⟩
  paperPnlUsdt := .float 1
  netPct := .float 1
  diagnosis := .null
  outcomeLearningBucket := .null
  outcomeLearningActionability := .null

theorem cell_outcome_counts_twice :
    ¬ CountsOnce plainPython sampleCandidates [sampleRow] := by
  intro h
  have hterminal := h.terminal
  have htwo : (summarizeMemory (buildMemoryIndex plainPython sampleCandidates
      [sampleRow])).paperTerminalRows = 2 := by decide +kernel
  rw [htwo] at hterminal
  exact absurd hterminal (by decide +kernel)

end ResearchLab.OutcomeMemory
