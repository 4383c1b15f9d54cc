import ResearchLab.Foundation.FloatSum
import ResearchLab.RuntimeStorage.Failures
import ResearchLab.Foundation.Machine

/-!
# Rebuilding the index

The index is kept row by row, and it is rebuilt from the files that are still there. A stream whose
segments never leave, and sort as they were sealed, is found again as it was; so is one that never
held a row.
-/
namespace ResearchLab.RuntimeStorage
open Foundation

variable {φ δ : Type} [DecidableEq δ] (py : Python φ δ) (cap : RuntimeStorageCapability)

/-! ## Calls on a root -/

/-- What one call of `seal_oversized_active_streams` meets. -/
structure Sealing where
  locked : Bool
  regular : String → Bool
  renamed : String → Bool
  name : String → ℕ

/-- A flag says that the call has raised. -/
def sealOversized (b : Sealing) (r : Root δ × Bool) (p : RuntimeStreamPolicy) : Root δ × Bool :=
  if r.2 ∨ ((r.1.files p.relativePath).getD []).length < p.maxActiveBytes then r
  else if b.regular p.streamId = false ∨ b.renamed p.streamId = false then (r.1, true)
  else (r.1.sealFile p p.relativePath (b.name p.streamId), false)

def sealOversizedActiveStreams (b : Sealing) (root : Root δ) : Root δ × Bool :=
  if b.locked = false then (root, true) else cap.streams.foldl (sealOversized b) (root, false)

/-- The files of a stream that are still there: the pending segments and the active file. -/
def Root.filesOf (root : Root δ) (p : RuntimeStreamPolicy) : List Bytes :=
  (root.pending p).map Segment.bytes ++ (root.files p.relativePath).toList

def rebuildFile (p : RuntimeStreamPolicy) (r : Root δ × Bool) (data : Bytes) : Root δ × Bool :=
  if r.2 then r
  else
    match indexRows py true p (decodeJsonLines py (splitBytes data)) r.1.index with
    | none => (r.1, true)
    | some index => (({ r.1 with index } : Root δ).appendTail p (splitBytes data), false)

def rebuildStream (r : Root δ × Bool) (p : RuntimeStreamPolicy) : Root δ × Bool :=
  (r.1.filesOf p).foldl (rebuildFile py p) r

def rebuildRuntimeSemanticIndex (root : Root δ) : Root δ × Bool :=
  cap.streams.foldl (rebuildStream py) ({ root with index := .empty }, false)

/-- The streams that a call of `archive_pending_segments` selects. -/
def selected (streamIds : List String) : List String :=
  (cap.streams.map RuntimeStreamPolicy.streamId).filter fun id => streamIds = [] ∨ id ∈ streamIds

inductive Call
  | append (a : Answers) (path : String) (lines : List Bytes)
  | sealing (b : Sealing)
  | archive (m : Maintenance) (streamIds : List String)

def Root.call (root : Root δ) : Call → Root δ
  | .append a path lines => (appendRuntimeLines py a (.ready cap) path lines root).1
  | .sealing b => (sealOversizedActiveStreams cap b root).1
  | .archive m streamIds => m.archivePendingSegments (selected cap streamIds) root

/-- A root as the activation finds it: files, and nothing else. -/
def foundRoot (files : String → Option Bytes) : Root δ :=
  ⟨files, fun _ => [], fun _ => none, .empty⟩

/-! ## What the root answers -/

namespace Root

variable (root : Root δ)

def semanticKeyExists (streamId keyType keyValue status : String) : Bool :=
  (root.index.semanticKeys streamId).any fun k =>
    k.keyType = keyType ∧ k.keyValue = keyValue ∧ (status = "" ∨ k.status = status)

def semanticStatusCount (streamId keyType keyValue : String) (statuses : List String) : ℕ :=
  (root.index.semanticKeys streamId).countP fun k =>
    k.keyType = keyType ∧ k.keyValue = keyValue ∧ k.status ∈ statuses

structure SemanticCounts where
  existing : Bool
  rows : ℕ
  byKey : List (String × ℕ)
  deriving DecidableEq

/-- Distinct values of a key, and of each category. -/
def countsOf (streamId keyType : String) : SemanticCounts :=
  let keys := (root.index.semanticKeys streamId).filter fun k => k.keyType = keyType
  let total := (keys.map SemanticKey.keyValue).dedup.length
  { existing := 0 < total
    rows := total
    byKey := (sortOn id ((keys.map SemanticKey.category).filter (· ≠ "")).dedup).map fun c =>
      (c, ((keys.filter fun k => k.category = c).map SemanticKey.keyValue).dedup.length) }

def semanticCountsForPath (path : String) : Option SemanticCounts :=
  match cap.policyFor path with
  | none => none
  | some p =>
      if p.streamId = "lineage.scanner" then some (root.countsOf p.streamId "scanner_event_id")
      else if p.streamId = "lineage.links" then some (root.countsOf p.streamId "lineage_link_id")
      else none

structure InvocationSummary where
  invocations : ℕ
  invocationEvents : ℕ
  byStatus : List (String × ℕ)
  byRole : List (String × ℕ)
  totalTokens : ℤ
  totalCostRub : ℚ
  deriving DecidableEq

def sortedCounts (labels : List String) : List (String × ℕ) :=
  (sortOn id labels.dedup).map fun label => (label, labels.count label)

def llmInvocationSummary : InvocationSummary where
  invocations := root.index.llmLatest.toList.length
  invocationEvents :=
    ((root.index.semanticKeys "llm.invocations").map SemanticKey.eventDigest).dedup.length
  byStatus := sortedCounts (root.index.llmLatest.toList.map Latest.status)
  byRole := sortedCounts (root.index.llmLatest.toList.map Latest.roleId)
  totalTokens := (root.index.llmLatest.toList.map Latest.totalTokens).sum
  totalCostRub := roundTo 4 (floatSum (root.index.llmLatest.toList.map Latest.costRub))

/-- The last rows of the tail file, or of the file itself without a stream; a limit of zero or less
asks for all of them. -/
def readRuntimeTail (path : String) (limit : ℤ) : List (Row φ) :=
  let source := match cap.policyFor path with
    | some p => root.tails p.streamId
    | none => root.files path
  let rows := decodeJsonLines py ((splitBytes (source.getD [])).map bareLine)
  if limit ≤ 0 then rows else rows.rtake limit.toNat

end Root

/-- Two roots answer every query alike. -/
structure SameAnswers (root root' : Root δ) : Prop where
  exist : ∀ streamId keyType keyValue status,
    root.semanticKeyExists streamId keyType keyValue status =
      root'.semanticKeyExists streamId keyType keyValue status
  statusCount : ∀ streamId keyType keyValue statuses,
    root.semanticStatusCount streamId keyType keyValue statuses =
      root'.semanticStatusCount streamId keyType keyValue statuses
  counts : ∀ path, root.semanticCountsForPath cap path = root'.semanticCountsForPath cap path
  summary : root.llmInvocationSummary = root'.llmInvocationSummary
  tail : ∀ path limit, root.readRuntimeTail py cap path limit = root'.readRuntimeTail py cap path limit

/-! ## Streams that can be rebuilt -/

/-- One line, and its line feed. -/
def WholeLine (line : Bytes) : Prop := splitBytes line = [line] ∧ line.getLast? = some 10

/-- A row of the invocations that has a logical id has a key. -/
def Keyed (p : RuntimeStreamPolicy) (rows : List (Row φ)) : Prop :=
  p.streamId = "llm.invocations" → ∀ row ∈ rows, row.logicalId py ≠ "" →
    semanticValues py row ≠ some []

/-- The rows of a file. -/
def rowsOf (data : Bytes) : List (Row φ) := decodeJsonLines py (splitBytes data)

/-- A segment stays pending. -/
def Stays (m : Maintenance) (streamId : String) (name : ℕ) : Prop :=
  m.archival streamId name = .unclaimed ∨ m.archival streamId name = .released

/-- The call gets to its write. -/
def Answers.Writes (a : Answers) : Prop := a.locked = true ∧ a.regular = true ∧ a.opened = true

/-- No row has a key. -/
def Keyless (rows : List (Row φ)) : Prop :=
  ∀ row ∈ rows, semanticValues py row = some []

/-- A standard output that never prints a key: neither the lines nor the file with them hold one. -/
def QuietAppend (a : Answers) (p : RuntimeStreamPolicy) (lines : List Bytes) (root : Root δ) :
    Prop :=
  Keyless py (decodeJsonLines py lines) ∧
    Keyless py (rowsOf py ((root.files p.relativePath).getD [] ++ a.written lines))

/-- The call seals the file. -/
def Answers.Seals (a : Answers) (p : RuntimeStreamPolicy) (lines : List Bytes) (root : Root δ) :
    Prop :=
  a.measured = true ∧ a.renamed = true ∧ p.maxActiveBytes ≤
    (((root.files p.relativePath).getD []) ++ a.written lines).length

/-- The lines are whole and keyed, they are indexed and in the tail, and a segment that is sealed
then sorts behind the others and stays with them. -/
structure OrderlyAppend (a : Answers) (p : RuntimeStreamPolicy) (lines : List Bytes)
    (root : Root δ) : Prop where
  written : a.stopped = none
  synced : a.synced = true
  indexed : indexRows py a.connected p (decodeJsonLines py lines) root.index ≠ none
  tail : p.isStdout = true ∨ a.tailWritten = true
  whole : ∀ l ∈ lines, WholeLine l
  keyed : Keyed py p (decodeJsonLines py lines)
  last : a.Seals p lines root → ∀ s ∈ root.segments p.streamId, s.name < a.name
  stays : a.Seals p lines root → a.maintenance.catalogOpened = true →
    (∀ s ∈ root.segments p.streamId, Stays a.maintenance p.streamId s.name) ∧
      Stays a.maintenance p.streamId a.name

/-- What a call leaves rebuildable; `quiet` tells the streams without keys from the others. -/
def Rebuildable (quiet : String → Bool) (root : Root δ) : Call → Prop
  | .append a path lines => lines ≠ [] → a.Writes → ∀ p, cap.policyFor path = some p →
      if quiet p.streamId then QuietAppend py a p lines root else OrderlyAppend py a p lines root
  | .sealing b => ∀ p ∈ cap.streams, quiet p.streamId = false →
      p.maxActiveBytes ≤ ((root.files p.relativePath).getD []).length →
        ∀ s ∈ root.segments p.streamId, s.name < b.name p.streamId
  | .archive m streamIds => m.catalogOpened = true → ∀ id ∈ selected cap streamIds,
      quiet id = false → ∀ s ∈ root.segments id, Stays m id s.name

/-- The files that an activation finds: without keys where the stream is quiet, and of whole,
keyed lines that the index takes elsewhere. -/
def FoundRebuildable (quiet : String → Bool) (files : String → Option Bytes) : Prop :=
  ∀ p ∈ cap.streams, ∀ data, files p.relativePath = some data →
    if quiet p.streamId then Keyless py (rowsOf py data)
    else (∀ l ∈ splitBytes data, WholeLine l) ∧ Keyed py p (rowsOf py data) ∧
      (rowsOf py data).mapM (semanticValues py) ≠ none ∧
      latestOf py p (rowsOf py data) Table.empty ≠ none

/-- Runs of calls behind an activation, each of which leaves the streams rebuildable. -/
def calls (quiet : String → Bool) : Machine (Root δ) Call where
  init root := ∃ files, FoundRebuildable py cap quiet files ∧
    root = (rebuildRuntimeSemanticIndex py cap (foundRoot files)).1
  enabled := Rebuildable py cap quiet
  step root c := root.call py cap c

/-- The tail of each stream is full, or the stream has no line. -/
def TailsFull (quiet : String → Bool) (root : Root δ) : Prop :=
  ∀ p ∈ cap.streams, p.isStdout = false → quiet p.streamId = false →
    (root.filesOf p).flatMap splitBytes = [] ∨
      p.tailRecords ≤ ((root.filesOf p).flatMap splitBytes).length

/-! ## Lines and rows -/

variable {py cap} {p : RuntimeStreamPolicy} {lines : List Bytes} {data rest : Bytes} {l : Bytes}
  {rows : List (Row φ)} {index index' : Index δ} {latest : Table String Latest}
  {values : List (List (SemanticKey δ))} {root root' : Root δ}

theorem flatten_splitBytes (data : Bytes) : (splitBytes data).flatten = data :=
  flatten_splitLines data

theorem WholeLine.splitBytes_append (h : WholeLine l) :
    splitBytes (l ++ rest) = l :: splitBytes rest := by
  have happend : splitBytes (l ++ rest) = splitBytes l ++ splitBytes rest :=
    splitLines_append (by decide) (fun _ => by simp) h.2
  rw [happend, h.1]
  rfl

theorem splitBytes_flatten (h : ∀ l ∈ lines, WholeLine l) : splitBytes lines.flatten = lines := by
  induction lines with
  | nil => rfl
  | cons l ls ih =>
      rw [List.flatten_cons, (h l (List.mem_cons_self ..)).splitBytes_append,
        ih fun l' hl' => h l' (List.mem_cons_of_mem _ hl')]

theorem splitBytes_append_flatten (hdata : ∀ l ∈ splitBytes data, WholeLine l)
    (hlines : ∀ l ∈ lines, WholeLine l) :
    splitBytes (data ++ lines.flatten) = splitBytes data ++ lines := by
  conv_lhs => rw [← flatten_splitBytes data, ← List.flatten_append]
  refine splitBytes_flatten fun l hl => ?_
  obtain hl | hl := List.mem_append.1 hl
  · exact hdata l hl
  · exact hlines l hl

omit [DecidableEq δ] in
theorem decodeJsonLines_append (ls ls' : List Bytes) :
    decodeJsonLines py (ls ++ ls') = decodeJsonLines py ls ++ decodeJsonLines py ls' :=
  List.filterMap_append

/-! ## Indexing in one go -/

/-- The index with further keys of a stream, and another table of the latest. -/
def Index.extend (index : Index δ) (p : RuntimeStreamPolicy) (values : List (SemanticKey δ))
    (latest : Table String Latest) : Index δ where
  semanticKeys := Function.update index.semanticKeys p.streamId
    (values.foldl insertOrIgnore (index.semanticKeys p.streamId))
  llmLatest := latest

theorem Index.extend_nil : index.extend p [] index.llmLatest = index := by
  simp [Index.extend]

omit [DecidableEq δ] in
theorem mem_of_mapM_values (h : rows.mapM (semanticValues py) = some values) {row : Row φ}
    (hrow : row ∈ rows) : ∃ v ∈ values, semanticValues py row = some v := by
  induction rows generalizing values with
  | nil => simp at hrow
  | cons r rs ih =>
      simp only [List.mapM_cons, Option.pure_def, Option.bind_eq_bind, Option.bind_eq_some_iff,
        Option.some.injEq] at h
      obtain ⟨v, hv, vs, hvs, rfl⟩ := h
      obtain rfl | hrow := List.mem_cons.1 hrow
      · exact ⟨v, List.mem_cons_self .., hv⟩
      · obtain ⟨v', hv', heq⟩ := ih hvs hrow
        exact ⟨v', List.mem_cons_of_mem _ hv', heq⟩

omit [DecidableEq δ] in
/-- Rows without a logical id are no latest rows. -/
theorem foldlM_keepLatest (h : ∀ row ∈ rows, row.logicalId py = "") :
    rows.foldlM (keepLatest py) latest = some latest := by
  induction rows with
  | nil => rfl
  | cons r rs ih =>
      have hr : keepLatest py latest r = some latest := if_pos (h r (List.mem_cons_self ..))
      rw [List.foldlM_cons, hr]
      exact ih fun row hrow => h row (List.mem_cons_of_mem _ hrow)

omit [DecidableEq δ] in
theorem latestOf_of_no_keys (hkeyed : Keyed py p rows)
    (hvalues : rows.mapM (semanticValues py) = some values) (hflat : values.flatten = []) :
    latestOf py p rows latest = some latest := by
  unfold latestOf
  split
  · rename_i hp
    refine foldlM_keepLatest fun row hrow => ?_
    by_contra hid
    obtain ⟨v, hv, heq⟩ := mem_of_mapM_values hvalues hrow
    exact hkeyed hp row hrow hid (heq.trans (congrArg some (List.flatten_eq_nil_iff.1 hflat v hv)))
  · rfl

/-- A transaction on keyed rows adds their keys and takes their latest. -/
theorem indexRows_eq_some (hkeyed : Keyed py p rows) :
    indexRows py true p rows index = some index' ↔
      ∃ values latest, rows.mapM (semanticValues py) = some values ∧
        latestOf py p rows index.llmLatest = some latest ∧
          index' = index.extend p values.flatten latest := by
  unfold indexRows
  cases hvalues : rows.mapM (semanticValues py) with
  | none => simp
  | some values =>
      simp only [Option.bind_eq_bind, Option.bind_some, Bool.true_eq_false, if_false]
      by_cases hflat : values.flatten = []
      · rw [if_pos hflat]
        have hlatest : latestOf py p rows index.llmLatest = some index.llmLatest :=
          latestOf_of_no_keys hkeyed hvalues hflat
        constructor
        · rintro ⟨⟩
          exact ⟨values, _, rfl, hlatest, by rw [hflat, Index.extend_nil]⟩
        · rintro ⟨_, latest, ⟨⟩, hlatest', rfl⟩
          obtain rfl := Option.some.inj (hlatest.symm.trans hlatest')
          rw [hflat, Index.extend_nil]
      · rw [if_neg hflat, Option.bind_eq_some_iff]
        constructor
        · rintro ⟨latest, hlatest, ⟨⟩⟩
          exact ⟨values, latest, rfl, hlatest, rfl⟩
        · rintro ⟨_, latest, ⟨⟩, hlatest, rfl⟩
          exact ⟨latest, hlatest, rfl⟩

/-- What a database takes, another takes that is there. -/
theorem indexRows_connected {connected : Bool}
    (h : indexRows py connected p rows index = some index') :
    indexRows py true p rows index = some index' := by
  cases connected with
  | true => exact h
  | false =>
      unfold indexRows at h ⊢
      rw [Option.bind_eq_bind, Option.bind_eq_some_iff] at h
      obtain ⟨values, hvalues, h⟩ := h
      rw [hvalues]
      rw [Option.bind_eq_bind, Option.bind_some]
      by_cases hflat : values.flatten = []
      · rw [if_pos hflat] at h ⊢
        exact h
      · rw [if_neg hflat] at h
        simp at h

omit [DecidableEq δ] in
theorem latestOf_append (rows rows' : List (Row φ)) :
    latestOf py p (rows ++ rows') latest =
      (latestOf py p rows latest).bind fun latest' => latestOf py p rows' latest' := by
  unfold latestOf
  split
  · exact List.foldlM_append
  · rfl

/-! ## A stream from its files -/

theorem rtake_rtake_append {α : Type} (n : ℕ) (xs ys : List α) :
    (xs.rtake n ++ ys).rtake n = (xs ++ ys).rtake n := by
  simp only [List.rtake_eq_reverse_take_reverse, List.reverse_append, List.reverse_reverse,
    List.take_append, List.take_take]
  congr 3
  omega

theorem mem_of_mem_rtake {α : Type} {n : ℕ} {xs : List α} {x : α} (h : x ∈ xs.rtake n) : x ∈ xs :=
  List.mem_of_mem_drop h

/-- The lines of the tail file. -/
def Root.tailLines (root : Root δ) (p : RuntimeStreamPolicy) : List Bytes :=
  ((root.tails p.streamId).map splitBytes).getD []

/-- The tail files behind some more lines of a stream. -/
def Root.tailsAfter (root : Root δ) (p : RuntimeStreamPolicy) (lines : List Bytes) :
    String → Option Bytes :=
  if p.isStdout then root.tails
  else Function.update root.tails p.streamId
    (some ((root.tailLines p ++ lines).rtake p.tailRecords).flatten)

omit [DecidableEq δ] in
theorem appendTail_eq (root : Root δ) (p : RuntimeStreamPolicy) (lines : List Bytes) :
    root.appendTail p lines = { root with tails := root.tailsAfter p lines } := by
  unfold Root.appendTail Root.tailsAfter
  split <;> rfl

omit [DecidableEq δ] in
theorem tailLines_tailsAfter {ls : List Bytes} {index : Index δ} (hp : p.isStdout = false)
    (htail : ∀ l ∈ root.tailLines p ++ ls, WholeLine l) :
    ({ root with index, tails := root.tailsAfter p ls } : Root δ).tailLines p =
      (root.tailLines p ++ ls).rtake p.tailRecords := by
  have hlines : splitBytes ((root.tailLines p ++ ls).rtake p.tailRecords).flatten =
      (root.tailLines p ++ ls).rtake p.tailRecords :=
    splitBytes_flatten fun l hl => htail l (mem_of_mem_rtake hl)
  rw [Root.tailLines]
  simp only [Root.tailsAfter, hp, Bool.false_eq_true, if_false, Function.update_self,
    Option.map_some, Option.getD_some, hlines]

omit [DecidableEq δ] in
/-- The tail of lines that are added in two parts is the tail of all of them. -/
theorem tailsAfter_append {ls ls' : List Bytes} {index : Index δ}
    (htail : p.isStdout = false → ∀ l ∈ root.tailLines p ++ ls, WholeLine l) :
    ({ root with index, tails := root.tailsAfter p ls } : Root δ).tailsAfter p ls' =
      root.tailsAfter p (ls ++ ls') := by
  cases hp : p.isStdout with
  | true => simp [Root.tailsAfter, hp]
  | false =>
      rw [Root.tailsAfter, tailLines_tailsAfter hp (htail hp), rtake_rtake_append]
      simp [Root.tailsAfter, hp]

theorem Index.extend_extend {latest' : Table String Latest} {vs vs' : List (SemanticKey δ)} :
    (index.extend p vs latest).extend p vs' latest' = index.extend p (vs ++ vs') latest' := by
  simp [Index.extend, List.foldl_append]

omit [DecidableEq δ] in
theorem mapM_values_append {rows rows' : List (Row φ)}
    (h : (rows ++ rows').mapM (semanticValues py) = some values) :
    ∃ vs vs', rows.mapM (semanticValues py) = some vs ∧
      rows'.mapM (semanticValues py) = some vs' ∧ values = vs ++ vs' := by
  simp only [List.mapM_append, Option.bind_eq_bind, Option.bind_eq_some_iff, Option.pure_def,
    Option.some.injEq] at h
  obtain ⟨vs, hvs, vs', hvs', rfl⟩ := h
  exact ⟨vs, vs', hvs, hvs', rfl⟩

omit [DecidableEq δ] in
theorem Keyed.of_append {rows rows' : List (Row φ)} (h : Keyed py p (rows ++ rows')) :
    Keyed py p rows ∧ Keyed py p rows' :=
  ⟨fun hp row hrow => h hp row (List.mem_append_left _ hrow),
    fun hp row hrow => h hp row (List.mem_append_right _ hrow)⟩

omit [DecidableEq δ] in
theorem Keyed.append {rows rows' : List (Row φ)} (h : Keyed py p rows) (h' : Keyed py p rows') :
    Keyed py p (rows ++ rows') := by
  intro hp row hrow
  obtain hrow | hrow := List.mem_append.1 hrow
  · exact h hp row hrow
  · exact h' hp row hrow

/-- What the rebuild makes of the files of a stream. -/
theorem foldl_rebuildFile {fs : List Bytes} (hfs : fs ≠ [])
    (hkeyed : Keyed py p (decodeJsonLines py (fs.flatMap splitBytes)))
    (htail : p.isStdout = false → ∀ l ∈ root.tailLines p ++ fs.flatMap splitBytes, WholeLine l)
    (hvalues : (decodeJsonLines py (fs.flatMap splitBytes)).mapM (semanticValues py) = some values)
    (hlatest : latestOf py p (decodeJsonLines py (fs.flatMap splitBytes)) root.index.llmLatest =
      some latest) :
    fs.foldl (rebuildFile py p) (root, false) =
      ({ root with
          index := root.index.extend p values.flatten latest
          tails := root.tailsAfter p (fs.flatMap splitBytes) }, false) := by
  induction fs generalizing root values with
  | nil => exact absurd rfl hfs
  | cons f fs ih =>
      rw [List.flatMap_cons, decodeJsonLines_append] at hkeyed hvalues hlatest
      rw [List.flatMap_cons] at htail ⊢
      obtain ⟨vs, vs', hvs, hvs', rfl⟩ := mapM_values_append hvalues
      rw [latestOf_append, Option.bind_eq_some_iff] at hlatest
      obtain ⟨latest', hlatest', hlatest⟩ := hlatest
      have hindex : indexRows py true p (decodeJsonLines py (splitBytes f)) root.index =
          some (root.index.extend p vs.flatten latest') :=
        (indexRows_eq_some hkeyed.of_append.1).2 ⟨vs, latest', hvs, hlatest', rfl⟩
      have hfile : rebuildFile py p (root, false) f =
          ({ root with
              index := root.index.extend p vs.flatten latest'
              tails := root.tailsAfter p (splitBytes f) }, false) := by
        simp only [rebuildFile, hindex, appendTail_eq, Bool.false_eq_true, if_false]
        rfl
      rw [List.foldl_cons, hfile]
      by_cases hnil : fs = []
      · subst hnil
        obtain rfl : vs' = [] := by simpa [decodeJsonLines] using hvs'
        obtain rfl : latest' = latest := by
          unfold latestOf at hlatest
          split at hlatest <;> simpa [decodeJsonLines] using hlatest
        simp
      · rw [ih hnil hkeyed.of_append.2 ?_ hvs' hlatest]
        · rw [Index.extend_extend, tailsAfter_append fun hp l hl => htail hp l ?_,
            List.flatten_append]
          rw [← List.append_assoc]
          exact List.mem_append_left _ hl
        · intro hp l hl
          rw [tailLines_tailsAfter hp fun l hl => htail hp l (by grind)] at hl
          obtain hl | hl := List.mem_append.1 hl
          · exact htail hp l (by grind [mem_of_mem_rtake hl])
          · exact htail hp l (by grind)

/-! ## Streams that are kept -/

/-- The lines of a stream in the order of its segments. -/
def Root.linesOf (root : Root δ) (p : RuntimeStreamPolicy) : List Bytes :=
  ((root.segments p.streamId).map Segment.bytes ++
    (root.files p.relativePath).toList).flatMap splitBytes

variable (py) in
/-- A stream without keys. -/
structure Quiet (root : Root δ) (p : RuntimeStreamPolicy) : Prop where
  stdout : p.isStdout = true
  file : Keyless py (rowsOf py ((root.files p.relativePath).getD []))
  segments : ∀ s ∈ root.segments p.streamId, Keyless py (rowsOf py s.bytes)
  keys : root.index.semanticKeys p.streamId = []
  latest : p.streamId = "llm.invocations" → root.index.llmLatest = Table.empty

variable (py) in
/-- A stream whose segments are all pending, in the order of their names, and whose lines are what
the index and the tail hold. -/
structure Orderly (root : Root δ) (p : RuntimeStreamPolicy) : Prop where
  pending : ∀ s ∈ root.segments p.streamId, s.place = .sealed
  ascending : (root.segments p.streamId).Pairwise fun s s' => s.name < s'.name
  whole : ∀ l ∈ root.linesOf p, WholeLine l
  keyed : Keyed py p (decodeJsonLines py (root.linesOf p))
  keys : ∃ values, (decodeJsonLines py (root.linesOf p)).mapM (semanticValues py) = some values ∧
    root.index.semanticKeys p.streamId = values.flatten.foldl insertOrIgnore []
  latest : p.streamId = "llm.invocations" →
    latestOf py p (decodeJsonLines py (root.linesOf p)) Table.empty = some root.index.llmLatest
  tail : p.isStdout = false →
    (root.segments p.streamId = [] ∧ root.files p.relativePath = none ∧
      root.tails p.streamId = none) ∨
    root.tails p.streamId = some ((root.linesOf p).rtake p.tailRecords).flatten

variable (py) in
def Kept (quiet : String → Bool) (root : Root δ) (p : RuntimeStreamPolicy) : Prop :=
  if quiet p.streamId then Quiet py root p else Orderly py root p

/-- Whatever belongs to a stream is the same. -/
structure SameFor (root root' : Root δ) (p : RuntimeStreamPolicy) : Prop where
  files : root'.files p.relativePath = root.files p.relativePath
  segments : root'.segments p.streamId = root.segments p.streamId
  tails : root'.tails p.streamId = root.tails p.streamId
  keys : root'.index.semanticKeys p.streamId = root.index.semanticKeys p.streamId
  latest : p.streamId = "llm.invocations" → root'.index.llmLatest = root.index.llmLatest

omit [DecidableEq δ] in
theorem Quiet.same (h : Quiet py root p) (hsame : SameFor root root' p) : Quiet py root' p where
  stdout := h.stdout
  file := hsame.files ▸ h.file
  segments := hsame.segments ▸ h.segments
  keys := hsame.keys.trans h.keys
  latest hp := (hsame.latest hp).trans (h.latest hp)

theorem Orderly.same (h : Orderly py root p) (hsame : SameFor root root' p) :
    Orderly py root' p := by
  have hlines : root'.linesOf p = root.linesOf p := by
    rw [Root.linesOf, hsame.segments, hsame.files, Root.linesOf]
  constructor
  · exact hsame.segments ▸ h.pending
  · exact hsame.segments ▸ h.ascending
  · exact hlines ▸ h.whole
  · exact hlines ▸ h.keyed
  · rw [hlines, hsame.keys]
    exact h.keys
  · intro hp
    rw [hlines, hsame.latest hp]
    exact h.latest hp
  · rw [hlines, hsame.segments, hsame.files, hsame.tails]
    exact h.tail

theorem Kept.same {quiet : String → Bool} (h : Kept py quiet root p)
    (hsame : SameFor root root' p) : Kept py quiet root' p := by
  unfold Kept at h ⊢
  split at h
  · rw [if_pos ‹_›]
    exact h.same hsame
  · rw [if_neg ‹_›]
    exact h.same hsame

theorem Orderly.filesOf (h : Orderly py root p) :
    root.filesOf p =
      (root.segments p.streamId).map Segment.bytes ++ (root.files p.relativePath).toList := by
  have hfilter : (root.segments p.streamId).filter (fun s => s.place = .sealed) =
      root.segments p.streamId := List.filter_eq_self.2 fun s hs => by simp [h.pending s hs]
  rw [Root.filesOf, Root.pending, hfilter,
    sortOn_eq_self (h.ascending.imp fun hlt => hlt.le)]

theorem rtake_append_of_le {α : Type} {n : ℕ} {xs ys : List α} (h : n ≤ ys.length) :
    (xs ++ ys).rtake n = ys.rtake n := by
  simp only [List.rtake_eq_reverse_take_reverse, List.reverse_append]
  rw [List.take_append_of_le_length (by simpa using h)]

/-- The index with a stream as another root has it. -/
def Index.restore (index : Index δ) (root : Root δ) (p : RuntimeStreamPolicy) : Index δ where
  semanticKeys := Function.update index.semanticKeys p.streamId (root.index.semanticKeys p.streamId)
  llmLatest := if p.streamId = "llm.invocations" then root.index.llmLatest else index.llmLatest

/-- A root with the files and tails of another, and nothing of a stream in its index. -/
structure Cleared (root r : Root δ) (p : RuntimeStreamPolicy) : Prop where
  files : r.files = root.files
  segments : r.segments = root.segments
  tails : r.tails = root.tails
  keys : r.index.semanticKeys p.streamId = []
  latest : p.streamId = "llm.invocations" → r.index.llmLatest = Table.empty

omit [DecidableEq δ] in
theorem Cleared.filesOf {r : Root δ} (h : Cleared root r p) : r.filesOf p = root.filesOf p := by
  rw [Root.filesOf, Root.pending, h.files, h.segments, Root.filesOf, Root.pending]

omit [DecidableEq δ] in
theorem Index.restore_eq_self (hkeys : index.semanticKeys p.streamId = root.index.semanticKeys p.streamId)
    (hlatest : p.streamId = "llm.invocations" → index.llmLatest = root.index.llmLatest) :
    index.restore root p = index := by
  unfold Index.restore
  rw [← hkeys, Function.update_eq_self]
  split
  · rw [← hlatest ‹_›]
  · rfl

/-- Rows without a key begin no transaction. -/
theorem indexRows_of_keyless {connected : Bool} (h : Keyless py rows) :
    indexRows py connected p rows index = some index := by
  have hvalues : ∀ rows : List (Row φ), Keyless py rows →
      rows.mapM (semanticValues py) = some (rows.map fun _ => []) := by
    intro rows h
    induction rows with
    | nil => rfl
    | cons row rows ih =>
        obtain ⟨hrow, hrows⟩ := List.forall_mem_cons.1 h
        rw [List.mapM_cons, hrow, ih hrows]
        rfl
  have hflat : (rows.map fun _ : Row φ => ([] : List (SemanticKey δ))).flatten = [] := by simp
  simp only [indexRows, hvalues rows h, Option.bind_eq_bind, Option.bind_some, if_pos hflat]

theorem rebuildFile_of_keyless (hp : p.isStdout = true) (hdata : Keyless py (rowsOf py data)) :
    rebuildFile py p (root, false) data = (root, false) := by
  have hindex : indexRows py true p (decodeJsonLines py (splitBytes data)) root.index =
      some root.index := indexRows_of_keyless hdata
  simp only [rebuildFile, hindex, appendTail_eq, Root.tailsAfter, hp, Bool.false_eq_true, if_false,
    if_true]

theorem Quiet.rebuildStream {r : Root δ} (h : Quiet py root p) (hr : Cleared root r p) :
    rebuildStream py (r, false) p = ({ r with index := r.index.restore root p }, false) := by
  have hfiles : ∀ data ∈ root.filesOf p, Keyless py (rowsOf py data) := by
    intro data hdata
    obtain hdata | hdata := List.mem_append.1 hdata
    · obtain ⟨s, hs, rfl⟩ := List.mem_map.1 hdata
      exact h.segments s (List.mem_filter.1 (mem_sortOn.1 hs)).1
    · have hfile := h.file
      rw [Option.mem_toList.1 hdata] at hfile
      exact hfile
  have hrestore : r.index.restore root p = r.index :=
    Index.restore_eq_self (hr.keys.trans h.keys.symm) fun hp =>
      (hr.latest hp).trans (h.latest hp).symm
  rw [hrestore, RuntimeStorage.rebuildStream, hr.filesOf]
  clear hrestore hr
  generalize root.filesOf p = files at hfiles
  induction files with
  | nil => rfl
  | cons data rest ih =>
      rw [List.foldl_cons, rebuildFile_of_keyless h.stdout (hfiles data (List.mem_cons_self ..))]
      exact ih fun d hd => hfiles d (List.mem_cons_of_mem _ hd)

theorem Orderly.rebuildStream {r : Root δ} (h : Orderly py root p) (hr : Cleared root r p)
    (hfull : p.isStdout = false → root.linesOf p = [] ∨ p.tailRecords ≤ (root.linesOf p).length) :
    rebuildStream py (r, false) p = ({ r with index := r.index.restore root p }, false) := by
  obtain ⟨values, hvalues, hkeys⟩ := h.keys
  rw [RuntimeStorage.rebuildStream, hr.filesOf, h.filesOf]
  by_cases hfs : (root.segments p.streamId).map Segment.bytes ++
      (root.files p.relativePath).toList = []
  · -- a stream without files has nothing to restore
    have hlines : root.linesOf p = [] := by rw [Root.linesOf, hfs, List.flatMap_nil]
    rw [hlines] at hvalues
    obtain rfl : values = [] := (Option.some.inj hvalues).symm
    have hlatest : p.streamId = "llm.invocations" → r.index.llmLatest = root.index.llmLatest := by
      intro hp
      have hroot := h.latest hp
      rw [hlines, latestOf, if_pos hp] at hroot
      exact (hr.latest hp).trans (Option.some.inj hroot)
    rw [hfs, List.foldl_nil, Index.restore_eq_self (hr.keys.trans hkeys.symm) hlatest]
  · have htails : p.isStdout = false →
        root.tails p.streamId = some ((root.linesOf p).rtake p.tailRecords).flatten := by
      intro hp
      obtain ⟨hsegments, hfile, -⟩ | htail := h.tail hp
      · rw [hsegments, hfile] at hfs
        exact absurd rfl hfs
      · exact htail
    have htail : p.isStdout = false → r.tailLines p = (root.linesOf p).rtake p.tailRecords := by
      intro hp
      rw [Root.tailLines, hr.tails, htails hp]
      exact splitBytes_flatten fun l hl => h.whole l (mem_of_mem_rtake hl)
    have hlatest : latestOf py p (decodeJsonLines py (root.linesOf p)) r.index.llmLatest =
        some (r.index.restore root p).llmLatest := by
      by_cases hp : p.streamId = "llm.invocations"
      · rw [hr.latest hp, h.latest hp, Index.restore, if_pos hp]
      · rw [latestOf, if_neg hp, Index.restore, if_neg hp]
    rw [foldl_rebuildFile hfs h.keyed ?_ hvalues hlatest]
    · have hindex : r.index.extend p values.flatten (r.index.restore root p).llmLatest =
          r.index.restore root p := by
        rw [Index.extend, hr.keys, ← hkeys]
        rfl
      have hsame : r.tailsAfter p (root.linesOf p) = r.tails := by
        unfold Root.tailsAfter
        split
        · rfl
        · have hp : p.isStdout = false := Bool.eq_false_iff.2 ‹_›
          rw [htail hp, rtake_rtake_append]
          have hlast : (root.linesOf p ++ root.linesOf p).rtake p.tailRecords =
              (root.linesOf p).rtake p.tailRecords := by
            obtain hnil | hlength := hfull hp
            · rw [hnil]
              rfl
            · exact rtake_append_of_le hlength
          rw [hlast, ← htails hp, ← hr.tails, Function.update_eq_self]
      rw [hindex]
      exact congrArg (fun tails =>
        (({ r with index := r.index.restore root p, tails } : Root δ), false)) hsame
    · intro hp l hl
      obtain hl | hl := List.mem_append.1 hl
      · rw [htail hp] at hl
        exact h.whole l (mem_of_mem_rtake hl)
      · exact h.whole l hl

theorem Kept.rebuildStream {quiet : String → Bool} {r : Root δ} (h : Kept py quiet root p)
    (hr : Cleared root r p)
    (hfull : p.isStdout = false → quiet p.streamId = false →
      root.linesOf p = [] ∨ p.tailRecords ≤ (root.linesOf p).length) :
    rebuildStream py (r, false) p = ({ r with index := r.index.restore root p }, false) := by
  unfold Kept at h
  split at h
  · exact h.rebuildStream hr
  · exact h.rebuildStream hr fun hp => hfull hp (Bool.eq_false_iff.2 ‹_›)

omit [DecidableEq δ] in
/-- Restoring one stream leaves another cleared. -/
theorem Cleared.restore {q : RuntimeStreamPolicy} {r : Root δ} (h : Cleared root r p)
    (hne : p.streamId ≠ q.streamId) :
    Cleared root { r with index := r.index.restore root q } p where
  files := h.files
  segments := h.segments
  tails := h.tails
  keys := (Function.update_of_ne hne _ _).trans h.keys
  latest hp := by
    have hq : q.streamId ≠ "llm.invocations" := fun hq => hne (hp.trans hq.symm)
    exact (if_neg hq).trans (h.latest hp)

/-- Each stream is restored in its turn. -/
theorem foldl_rebuildStream {quiet : String → Bool} {qs : List RuntimeStreamPolicy} {r : Root δ}
    (hids : (qs.map RuntimeStreamPolicy.streamId).Nodup)
    (hkept : ∀ p ∈ qs, Kept py quiet root p) (hr : ∀ p ∈ qs, Cleared root r p)
    (hfull : ∀ p ∈ qs, p.isStdout = false → quiet p.streamId = false →
      root.linesOf p = [] ∨ p.tailRecords ≤ (root.linesOf p).length) :
    qs.foldl (rebuildStream py) (r, false) =
      ({ r with index := qs.foldl (fun index p => index.restore root p) r.index }, false) := by
  induction qs generalizing r with
  | nil => rfl
  | cons q qs ih =>
      rw [List.map_cons, List.nodup_cons] at hids
      have hq := List.mem_cons_self (a := q) (l := qs)
      have hstep := (hkept q hq).rebuildStream (hr q hq) (hfull q hq)
      rw [List.foldl_cons, hstep, List.foldl_cons]
      refine ih hids.2 (fun p hp => hkept p (List.mem_cons_of_mem _ hp)) (fun p hp => ?_)
        fun p hp => hfull p (List.mem_cons_of_mem _ hp)
      refine (hr p (List.mem_cons_of_mem _ hp)).restore fun heq => hids.1 ?_
      exact heq ▸ List.mem_map_of_mem hp

omit [DecidableEq δ] in
theorem foldl_restore (qs : List RuntimeStreamPolicy) (index : Index δ) :
    qs.foldl (fun index p => index.restore root p) index =
      { semanticKeys := fun id => if id ∈ qs.map RuntimeStreamPolicy.streamId then
          root.index.semanticKeys id else index.semanticKeys id
        llmLatest := if "llm.invocations" ∈ qs.map RuntimeStreamPolicy.streamId then
          root.index.llmLatest else index.llmLatest } := by
  induction qs generalizing index with
  | nil => simp
  | cons q qs ih =>
      rw [List.foldl_cons, ih]
      congr 1
      · funext id
        by_cases hid : id = q.streamId
        · simp [Index.restore, hid]
        · simp [Index.restore, hid]
      · by_cases hq : q.streamId = "llm.invocations"
        · simp [Index.restore, hq]
        · simp [Index.restore, hq, Ne.symm hq]

/-- The index holds nothing of a stream without a policy. -/
structure Bounded (cap : RuntimeStorageCapability) (root : Root δ) : Prop where
  keys : ∀ id ∉ cap.streams.map RuntimeStreamPolicy.streamId, root.index.semanticKeys id = []
  latest : "llm.invocations" ∉ cap.streams.map RuntimeStreamPolicy.streamId →
    root.index.llmLatest = Table.empty

/-- Where every stream is kept and every tail is full, the rebuild changes nothing. -/
theorem rebuild_eq_self {quiet : String → Bool} (hkept : ∀ p ∈ cap.streams, Kept py quiet root p)
    (hbounded : Bounded cap root)
    (hfull : ∀ p ∈ cap.streams, p.isStdout = false → quiet p.streamId = false →
      root.linesOf p = [] ∨ p.tailRecords ≤ (root.linesOf p).length) :
    rebuildRuntimeSemanticIndex py cap root = (root, false) := by
  have hindex : cap.streams.foldl (fun index p => index.restore root p) Index.empty = root.index := by
    rw [foldl_restore]
    obtain ⟨keys, latest⟩ := hbounded
    have hkeys : (fun id => if id ∈ cap.streams.map RuntimeStreamPolicy.streamId then
        root.index.semanticKeys id else (Index.empty : Index δ).semanticKeys id) =
        root.index.semanticKeys := by
      funext id
      split
      · rfl
      · exact (keys id ‹_›).symm
    have hlatest : (if "llm.invocations" ∈ cap.streams.map RuntimeStreamPolicy.streamId then
        root.index.llmLatest else (Index.empty : Index δ).llmLatest) = root.index.llmLatest := by
      split
      · rfl
      · exact (latest ‹_›).symm
    rw [hkeys, hlatest]
  have hcleared : ∀ p ∈ cap.streams, Cleared root { root with index := Index.empty } p :=
    fun p _ => ⟨rfl, rfl, rfl, rfl, fun _ => rfl⟩
  rw [rebuildRuntimeSemanticIndex, foldl_rebuildStream cap.ids_nodup hkept hcleared hfull, hindex]

end ResearchLab.RuntimeStorage
