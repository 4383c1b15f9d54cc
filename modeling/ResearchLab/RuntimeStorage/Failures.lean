import ResearchLab.RuntimeStorage.Rotation

/-!
# A call that fails

The lines are in the file before the index, the tail and the archive have had their turn. A call
that raises has appended nothing just when it fails before its first byte.
-/
namespace ResearchLab.RuntimeStorage
open Foundation

variable {φ δ : Type} {py : Python φ δ} {a : Answers} {p : RuntimeStreamPolicy}
  {state : CapabilityState} {path : String} {lines : List Bytes} {root : Root δ}

/-- What is kept of a stream: its segments, wherever they are, and its active file. -/
def Root.kept (root : Root δ) (path : String) (p : RuntimeStreamPolicy) : Bytes :=
  (root.segments p.streamId).flatMap Segment.bytes ++ (root.files path).getD []

def CapabilityState.policy (state : CapabilityState) (path : String) :
    Option RuntimeStreamPolicy :=
  match state with
  | .ready cap => cap.policyFor path
  | _ => none

/-- What is kept of the stream of a path, or of a file without a stream. -/
def Root.keptAt (root : Root δ) (state : CapabilityState) (path : String) : Bytes :=
  match state.policy path with
  | some p => root.kept path p
  | none => (root.files path).getD []

/-! ## What the stages keep -/

@[simp] theorem appendTail_files : (root.appendTail p lines).files = root.files := by
  unfold Root.appendTail
  split <;> rfl

@[simp] theorem appendTail_segments : (root.appendTail p lines).segments = root.segments := by
  unfold Root.appendTail
  split <;> rfl

@[simp] theorem write_segments (data : Bytes) : (root.write path data).segments = root.segments :=
  rfl

theorem write_file (data : Bytes) :
    ((root.write path data).files path).getD [] = (root.files path).getD [] ++ data := by
  simp [Root.write]

theorem kept_write (data : Bytes) : (root.write path data).kept path p = root.kept path p ++ data := by
  rw [Root.kept, write_file, write_segments, ← List.append_assoc, Root.kept]

theorem kept_sealFile (name : ℕ) : (root.sealFile p path name).kept path p = root.kept path p := by
  simp [Root.kept, Root.sealFile]

theorem bytes_archive (m : Maintenance) (stream : String) (s : Segment) :
    (m.archive stream (m.recover stream s)).bytes = s.bytes := by
  have hrecover : (m.recover stream s).bytes = s.bytes := by
    unfold Maintenance.recover
    split <;> rfl
  unfold Maintenance.archive
  split
  · split <;> exact hrecover
  · exact hrecover

@[simp] theorem archivePendingSegments_files (m : Maintenance) (streams : List String) :
    (m.archivePendingSegments streams root).files = root.files := by
  unfold Maintenance.archivePendingSegments
  split <;> rfl

/-- Archiving moves segments, and loses none. -/
theorem kept_archivePendingSegments (m : Maintenance) (streams : List String) :
    (m.archivePendingSegments streams root).kept path p = root.kept path p := by
  have hsegments : ((m.archivePendingSegments streams root).segments p.streamId).map Segment.bytes =
      (root.segments p.streamId).map Segment.bytes := by
    unfold Maintenance.archivePendingSegments
    split
    · dsimp only
      split
      · rw [List.map_map]
        exact List.map_congr_left fun s _ => bytes_archive m p.streamId s
      · rfl
    · rfl
  rw [Root.kept, archivePendingSegments_files, List.flatMap_def, hsegments, Root.kept,
    List.flatMap_def]

theorem kept_sealActive : (sealActive a p path root).1.kept path p = root.kept path p := by
  unfold sealActive
  split_ifs
  · rfl
  · rfl
  · rfl
  all_goals exact (kept_archivePendingSegments ..).trans (kept_sealFile a.name)

theorem appendPlain_cases (a : Answers) (path : String) (lines : List Bytes) (root : Root δ) :
    (a.opened = true ∧
      (appendPlain a path lines root).1 = root.write path (a.written lines) ∧
      ((appendPlain a path lines root).2 ≠ none ↔ a.stopped.isSome = true)) ∨
    (a.opened = false ∧ (appendPlain a path lines root).1 = root) := by
  unfold appendPlain
  by_cases hopened : a.opened = false
  · exact .inr (by simp [hopened])
  · exact .inl (by simp [hopened, Option.isSome_iff_ne_none])

theorem written_nil : a.written [] = [] := by
  unfold Answers.written
  split <;> simp

/-- Bytes behind others are nothing just when there are none. -/
theorem clean_iff_of_written {raises late : Prop} {before written : Bytes} (h : raises ↔ late) :
    (raises → before ++ written = before) ↔ ¬(written ≠ [] ∧ late) := by
  rw [List.append_right_eq_self, h]
  tauto

/-! ## Where a call fails -/

variable [DecidableEq δ]

/-- A call that raises has appended nothing. -/
def FailsClean (py : Python φ δ) (a : Answers) (state : CapabilityState) (path : String)
    (lines : List Bytes) (root : Root δ) : Prop :=
  (appendRuntimeLines py a state path lines root).2 ≠ none →
    (appendRuntimeLines py a state path lines root).1.keptAt state path = root.keptAt state path

/-- Some byte reaches the file. -/
structure Starts (a : Answers) (state : CapabilityState) (path : String) (lines : List Bytes) :
    Prop where
  some_byte : a.written lines ≠ []
  valid : state ≠ .invalid
  opened : a.opened = true
  coordinated : ∀ p, state.policy path = some p → a.locked = true ∧ a.regular = true

/-- The stages behind the sync that can fail, for a root with the lines in the file: the index, the
tail, the measuring, and for an oversized file the renaming and the archive. -/
def FailsSettling (py : Python φ δ) (a : Answers) (p : RuntimeStreamPolicy) (path : String)
    (lines : List Bytes) (root : Root δ) : Prop :=
  indexRows py a.connected p (decodeJsonLines py lines) root.index = none ∨
  (p.isStdout = false ∧ a.tailWritten = false) ∨
  a.measured = false ∨
  (p.maxActiveBytes ≤ ((root.files path).getD []).length ∧
    (a.renamed = false ∨
      a.maintenance.ready [p.streamId] (root.sealFile p path a.name) = false))

/-- The write stops, or it is not synced, or something behind it fails. -/
def FailsBehind (py : Python φ δ) (a : Answers) (p : RuntimeStreamPolicy) (path : String)
    (lines : List Bytes) (root : Root δ) : Prop :=
  a.stopped.isSome = true ∨ a.synced = false ∨
    FailsSettling py a p path lines (root.write path (a.written lines))

/-- The call fails behind its first byte; where no stream is coordinated only the write can. -/
def FailsLate (py : Python φ δ) (a : Answers) (state : CapabilityState) (path : String)
    (lines : List Bytes) (root : Root δ) : Prop :=
  Starts a state path lines ∧
    match state.policy path with
    | some p => FailsBehind py a p path lines root
    | none => a.stopped.isSome = true

theorem settleLines_raises :
    (settleLines py a p path lines root).2 ≠ none ↔ FailsSettling py a p path lines root := by
  unfold settleLines FailsSettling
  cases hindex : indexRows py a.connected p (decodeJsonLines py lines) root.index with
  | none => simp
  | some index =>
      have hready : a.maintenance.ready [p.streamId]
          ((({ root with index } : Root δ).appendTail p lines).sealFile p path a.name) =
          a.maintenance.ready [p.streamId] (root.sealFile p path a.name) := by
        simp [Maintenance.ready, Root.sealFile]
      by_cases htail : p.isStdout = false ∧ a.tailWritten = false
      · simp [htail]
      · simp only [htail, if_false, sealActive, appendTail_files, hready, reduceCtorEq, false_or]
        by_cases hmeasured : a.measured = false
        · simp [hmeasured]
        by_cases hsize : ((root.files path).getD []).length < p.maxActiveBytes
        · simp [hmeasured, hsize]
        by_cases hrenamed : a.renamed = false
        · simp [hmeasured, hsize, hrenamed, not_lt.1 hsize]
        simp [hmeasured, hsize, hrenamed, not_lt.1 hsize]

theorem kept_settleLines : (settleLines py a p path lines root).1.kept path p = root.kept path p := by
  unfold settleLines
  split
  · rfl
  · split_ifs
    · rfl
    · rw [kept_sealActive, Root.kept, appendTail_files, appendTail_segments, Root.kept]

/-- Before its write a call changes nothing; behind it the stream has the bytes written, whatever
fails. -/
theorem appendCoordinated_cases (py : Python φ δ) (a : Answers) (p : RuntimeStreamPolicy)
    (path : String) (lines : List Bytes) (root : Root δ) :
    ((a.locked = true ∧ a.regular = true ∧ a.opened = true) ∧
      (appendCoordinated py a p path lines root).1.kept path p =
        root.kept path p ++ a.written lines ∧
      ((appendCoordinated py a p path lines root).2 ≠ none ↔
        FailsBehind py a p path lines root)) ∨
    (¬(a.locked = true ∧ a.regular = true ∧ a.opened = true) ∧
      (appendCoordinated py a p path lines root).1 = root) := by
  unfold appendCoordinated FailsBehind
  by_cases hlocked : a.locked = false
  · exact .inr (by simp [hlocked])
  by_cases hregular : a.regular = false
  · exact .inr (by simp [hlocked, hregular])
  by_cases hopened : a.opened = false
  · exact .inr (by simp [hlocked, hregular, hopened])
  refine .inl ⟨⟨by simpa using hlocked, by simpa using hregular, by simpa using hopened⟩, ?_⟩
  rw [if_neg hlocked, if_neg hregular, if_neg hopened]
  by_cases hstopped : a.stopped.isSome = true
  · rw [if_pos hstopped]
    exact ⟨kept_write _, by simp [hstopped]⟩
  rw [if_neg hstopped]
  by_cases hsynced : a.synced = false
  · rw [if_pos hsynced]
    exact ⟨kept_write _, by simp [hsynced]⟩
  rw [if_neg hsynced]
  refine ⟨kept_settleLines.trans (kept_write _), ?_⟩
  rw [settleLines_raises]
  simp [hstopped, hsynced]

theorem appendRuntimeLines_eq (hlines : lines ≠ []) (hvalid : state ≠ .invalid) :
    appendRuntimeLines py a state path lines root =
      match state.policy path with
      | some p => appendCoordinated py a p path lines root
      | none => appendPlain a path lines root := by
  cases state with
  | absent => exact if_neg hlines
  | invalid => exact absurd rfl hvalid
  | ready cap =>
      unfold appendRuntimeLines
      rw [if_neg hlines]
      simp only [CapabilityState.policy]
      cases cap.policyFor path <;> rfl

/-- A failed call has appended nothing just when it did not fail behind its first byte. -/
theorem failsClean_iff : FailsClean py a state path lines root ↔
    ¬FailsLate py a state path lines root := by
  by_cases hlines : lines = []
  · subst hlines
    refine iff_of_true (fun _ => rfl) fun hlate => hlate.1.some_byte written_nil
  by_cases hvalid : state = .invalid
  · subst hvalid
    refine iff_of_true (fun _ => ?_) fun hlate => hlate.1.valid rfl
    have hrefused : appendRuntimeLines py a .invalid path lines root = (root, some .capability) :=
      if_neg hlines
    rw [hrefused]
  unfold FailsClean FailsLate Root.keptAt
  rw [appendRuntimeLines_eq hlines hvalid]
  cases hpolicy : state.policy path with
  | none =>
      dsimp only
      obtain ⟨hopened, hroot, hraises⟩ | ⟨hopened, hroot⟩ :=
        appendPlain_cases a path lines root
      · rw [hroot, write_file, clean_iff_of_written hraises]
        refine not_congr (and_congr_left fun _ => ⟨fun h => ⟨h, hvalid, hopened, ?_⟩, fun h => h.1⟩)
        simp [hpolicy]
      · rw [hroot]
        refine iff_of_true (fun _ => rfl) fun hlate => ?_
        exact absurd hlate.1.opened (by simp [hopened])
  | some p =>
      dsimp only
      obtain ⟨⟨hlocked, hregular, hopened⟩, hkept, hraises⟩ | ⟨hclosed, hroot⟩ :=
        appendCoordinated_cases py a p path lines root
      · rw [hkept, clean_iff_of_written hraises]
        refine not_congr (and_congr_left fun _ => ⟨fun h => ⟨h, hvalid, hopened, ?_⟩, fun h => h.1⟩)
        intro p' _
        exact ⟨hlocked, hregular⟩
      · rw [hroot]
        refine iff_of_true (fun _ => rfl) fun hlate => hclosed ?_
        obtain ⟨hlocked, hregular⟩ := hlate.1.coordinated p hpolicy
        exact ⟨hlocked, hregular, hlate.1.opened⟩

/-! ## A record that the index refuses -/

def ascii (s : String) : Bytes := s.toList.map fun c => .ofNat c.toNat

def invocations : RuntimeStreamPolicy where
  streamId := "llm.invocations"
  relativePath := "state/llm_advice/invocations.jsonl"
  payloadSchema := "LLMInvocation.v1"
  maxActiveBytes := 8 * 1024 * 1024
  tailRecords := 1000
  maxActive_pos := by decide
  tail_pos := by decide

def oneStream : RuntimeStorageCapability := ⟨[invocations], by decide⟩

/-- `json.dumps` of a row whose token count is no number, and its newline. -/
def badTokens : Bytes :=
  ascii "\x7b\"invocation_id\": \"llminv_0\", \"total_tokens\": \"many\"\x7d\n"

def badTokensRow : Row Empty :=
  [("invocation_id", .str "llminv_0"), ("total_tokens", .str "many")]

/-- Python for this one row. -/
def sampleInt : Json Empty → Option ℤ
  | .int n => some n
  | _ => none

def sampleStr : Json Empty → String
  | .str s => s
  | _ => ""

def samplePython : Python Empty ℕ where
  loads line := if line = badTokens then some (.obj badTokensRow) else none
  isZero x := x.elim
  str := sampleStr
  int := sampleInt
  float v := (sampleInt v).map fun n => n
  digest row := some row.length

def noFaults : Answers where
  locked := true
  regular := true
  opened := true
  stopped := none
  synced := true
  connected := true
  tailWritten := true
  measured := true
  renamed := true
  name := 0
  maintenance :=
    { catalogOpened := true
      recovery := fun _ _ => .young
      archival := fun _ _ => .archived
      budgetReady := true
      statusWritten := true }

def freshRoot : Root ℕ := ⟨fun _ => none, fun _ => [], fun _ => none, .empty⟩

/-- No stage fails by itself, but `int("many")` raises behind the write: the row is in the file, and
each retry appends it once more. -/
theorem bad_tokens_are_appended :
    ¬FailsClean samplePython noFaults (.ready oneStream) invocations.relativePath [badTokens]
        freshRoot ∧
      (appendRuntimeLines samplePython noFaults (.ready oneStream) invocations.relativePath
        [badTokens] freshRoot).2 = some .indexing ∧
      (appendRuntimeLines samplePython noFaults (.ready oneStream) invocations.relativePath
        [badTokens] freshRoot).1.files invocations.relativePath = some badTokens := by
  have hraised : (appendRuntimeLines samplePython noFaults (.ready oneStream)
      invocations.relativePath [badTokens] freshRoot).2 = some .indexing := by decide +kernel
  have hfile : (appendRuntimeLines samplePython noFaults (.ready oneStream)
      invocations.relativePath [badTokens] freshRoot).1.files invocations.relativePath =
        some badTokens := by decide +kernel
  refine ⟨fun hclean => ?_, hraised, hfile⟩
  exact absurd (hclean (by rw [hraised]; exact Option.some_ne_none _)) (by decide +kernel)

end ResearchLab.RuntimeStorage
