import Mathlib

/-!
# The journal of the segment store

Every change of a segment file is an intent and a terminal event around it: the intent carries the
bytes that are to be written, and the terminal event says that they were, or that the file shows
something else. A conflict blocks its stream for good. Digests, the frames of the segments and the
verification of the files are parameters.
-/
namespace ResearchLab.SegmentStore

abbrev Bytes := List UInt8

structure SegmentHeader where
  streamId : String
  segmentId : String
  segmentSeq : ℕ
  priorSegmentSha256 : Option String
  deriving DecidableEq

structure FileIdentity where
  device : ℕ
  inode : ℕ
  volumeSerial : ℕ
  deriving DecidableEq

inductive EventType
  | openIntent | opened | appendIntent | appendCommitted | sealIntent | sealed | conflict
  deriving DecidableEq

inductive OperationAction
  | open | append | autoSeal | manualSeal
  deriving DecidableEq

inductive ConflictReason
  | intentBlobMismatch | fileIdentityMismatch | preimageMismatch | tailMismatch | targetExists
  | namespaceAmbiguous | renameResultAmbiguous
  deriving DecidableEq

inductive SegmentError
  | conflict (message : String)
  | reason (reason : ConflictReason)
  | fileExists
  deriving DecidableEq

def EventType.isIntent (t : EventType) : Bool :=
  decide (t = .openIntent ∨ t = .appendIntent ∨ t = .sealIntent)

/-- `_SUCCESS`. -/
def EventType.success : EventType → Option EventType
  | .openIntent => some .opened
  | .appendIntent => some .appendCommitted
  | .sealIntent => some .sealed
  | _ => none

/-- What a terminal event repeats of its intent. -/
structure Operation where
  requestId : String
  action : OperationAction
  streamId : String
  segmentId : String
  segmentSeq : ℕ
  sourceName : String
  targetName : Option String := none
  preSize : Option ℕ := none
  preSha256 : Option String := none
  postSize : Option ℕ := none
  postSha256 : Option String := none
  deriving DecidableEq

/-- A row of `events`: its JSON and its column `intent_bytes`. -/
structure SegmentEvent extends Operation where
  eventType : EventType
  fileIdentity : Option FileIdentity
  intentSize : Option ℕ := none
  intentSha256 : Option String := none
  intentBytes : Option Bytes := none
  reasonCode : Option ConflictReason := none
  deriving DecidableEq

/-- What `_operation_id` is a digest of. -/
def Operation.id (op : Operation) : String × OperationAction × String × ℕ :=
  (op.requestId, op.action, op.streamId, op.segmentSeq)

structure SegmentFile where
  identity : FileIdentity
  bytes : Bytes
  deriving DecidableEq

/-- The events, and the files of each stream by their names. -/
structure SegmentState where
  events : List SegmentEvent
  files : String → String → Option SegmentFile

/-- What the store takes from outside: `_sha`, `_frame_bytes` of a header, what the verification of
the files finds wrong, and whether the root is on the Windows tier. -/
structure SegmentHost where
  sha : Bytes → String
  headerBytes : SegmentHeader → Bytes
  verify : SegmentState → Option SegmentError
  windows : Bool

variable (host : SegmentHost)

/-- `{segment_seq:020d}`. -/
def paddedSeq (seq : ℕ) : String := "".pushn '0' (20 - (toString seq).length) ++ toString seq

def sourceNameOf (seq : ℕ) (segmentId : String) : String :=
  paddedSeq seq ++ "." ++ segmentId ++ ".open.jsonl"

def targetNameOf (seq : ℕ) (segmentId sha : String) : String :=
  paddedSeq seq ++ "." ++ segmentId ++ "." ++ sha ++ ".sealed.jsonl"

/-! ## The rows of the journal -/

def actionMatches (t : EventType) (action : OperationAction) : Bool :=
  match t with
  | .openIntent | .opened => action = .open
  | .appendIntent | .appendCommitted => action = .append
  | .sealIntent | .sealed => action = .autoSeal ∨ action = .manualSeal
  | .conflict => true

/-- The fields that an event of each type must have. -/
def evidenceComplete (e : SegmentEvent) : Bool :=
  match e.eventType with
  | .openIntent =>
      e.fileIdentity = none ∧ e.targetName = none ∧ e.preSize = none ∧ e.postSize ≠ none
  | .opened =>
      e.fileIdentity ≠ none ∧ e.targetName = none ∧ e.preSize = none ∧ e.postSize ≠ none
  | .appendIntent | .appendCommitted =>
      e.fileIdentity ≠ none ∧ e.targetName = none ∧ e.preSize ≠ none ∧ e.postSize ≠ none
  | .sealIntent | .sealed =>
      e.fileIdentity ≠ none ∧ e.targetName ≠ none ∧ e.preSize ≠ none ∧ e.postSize ≠ none
  | .conflict => true

/-- `_validate_event_semantics`. -/
def eventSemantics (e : SegmentEvent) (pending : Option SegmentEvent) : Except SegmentError Unit :=
  if !actionMatches e.eventType e.action then
    .error (.conflict "segment event action/evidence mismatch")
  else if e.segmentSeq < 1 then .error (.conflict "segment event sequence evidence is invalid")
  else if e.preSize.isNone ≠ e.preSha256.isNone ∨ e.postSize.isNone ≠ e.postSha256.isNone ∨
      e.intentSize.isNone ≠ e.intentSha256.isNone then
    .error (.conflict "segment event size/hash evidence is incomplete")
  else if e.sourceName ≠ sourceNameOf e.segmentSeq e.segmentId then
    .error (.conflict "segment source-name evidence is invalid")
  else if ∃ target ∈ e.targetName,
      target ≠ targetNameOf e.segmentSeq e.segmentId (e.postSha256.getD "None") then
    .error (.conflict "segment target-name evidence is invalid")
  else if e.eventType.isIntent ≠ e.intentBytes.isSome then
    .error (.conflict "segment intent evidence is invalid")
  else if !evidenceComplete e then .error (.conflict "segment event evidence is invalid")
  else if !e.eventType.isIntent ∧ ∃ p ∈ pending, e.toOperation ≠ p.toOperation then
    .error (.conflict "segment terminal evidence differs from intent")
  else if (e.eventType = .conflict ∨ e.eventType = .appendCommitted ∨ e.eventType = .sealed) ∧
      ∃ p ∈ pending, e.fileIdentity ≠ p.fileIdentity then
    .error (.conflict "segment terminal file identity differs from intent")
  else .ok ()

/-- The intent that waits for its terminal event, and the streams that had a conflict. -/
structure JournalView where
  pending : Option SegmentEvent := none
  blocked : List String := []
  deriving DecidableEq

/-- One turn of the loop of `_validate_event_rows`. -/
def validateEvent (view : JournalView) (e : SegmentEvent) : Except SegmentError JournalView :=
  if e.streamId ∈ view.blocked then
    .error (.conflict "segment event follows a permanent stream conflict")
  else
    match eventSemantics e view.pending with
    | .error err => .error err
    | .ok () =>
        if e.eventType.isIntent then
          if view.pending.isSome then .error (.conflict "segment intents interleave globally")
          else if ∀ blob ∈ e.intentBytes,
              e.intentSize ≠ some blob.length ∨ e.intentSha256 ≠ some (host.sha blob) then
            .error (.conflict "segment intent blob mismatch")
          else if e.reasonCode.isSome then
            .error (.conflict "intent cannot carry terminal reason")
          else .ok { view with pending := some e }
        else
          match view.pending with
          | none => .error (.conflict "segment terminal event lacks adjacent intent")
          | some pending =>
              if e.intentSize.isSome ∨ e.intentSha256.isSome then
                .error (.conflict "non-intent event carries intent bytes")
              else if e.id ≠ pending.id then
                .error (.conflict "segment terminal event lacks adjacent intent")
              else if e.eventType = .conflict then
                if e.reasonCode.isNone then
                  .error (.conflict "segment conflict reason is invalid")
                else .ok ⟨none, view.blocked ++ [e.streamId]⟩
              else if some e.eventType ≠ pending.eventType.success ∨ e.reasonCode.isSome then
                .error (.conflict "segment event transition is invalid")
              else .ok { view with pending := none }

def validateEventRows (events : List SegmentEvent) : Except SegmentError JournalView :=
  events.foldlM (validateEvent host) {}

/-- `_publish_event`. -/
def publishEvent (e : SegmentEvent) (s : SegmentState) : Except SegmentError Unit × SegmentState :=
  match validateEventRows host s.events with
  | .error err => (.error err, s)
  | .ok view =>
      if e.eventType.isIntent ∧ view.pending.isSome then
        (.error (.conflict "another segment intent is globally pending"), s)
      else if !e.eventType.isIntent ∧ view.pending.map (·.id) ≠ some e.id then
        (.error (.conflict "terminal event does not match pending intent"), s)
      else (.ok (), { s with events := s.events ++ [e] })

/-- The event that `_publish_terminal_from_intent` publishes. -/
def terminalOf (intent : SegmentEvent) (eventType : EventType) (fileIdentity : Option FileIdentity)
    (reasonCode : Option ConflictReason) : SegmentEvent where
  toOperation := intent.toOperation
  eventType := eventType
  fileIdentity := fileIdentity.or intent.fileIdentity
  reasonCode := reasonCode

def SegmentState.setFile (s : SegmentState) (stream name : String) (file : Option SegmentFile) :
    SegmentState :=
  { s with files := Function.update s.files stream (Function.update (s.files stream) name file) }

/-! ## Opening a segment -/

structure OpenSegment where
  sourceName : String
  segmentId : String
  segmentSeq : ℕ
  deriving DecidableEq

/-- What the events declare of a stream: the digests of its sealed segments, and its open one. -/
structure StreamView where
  sealed : List (Option String) := []
  active : Option OpenSegment := none
  blocked : Bool := false
  deriving DecidableEq

/-- One turn of the first loop of `_physical_streams`, for one stream. -/
def declareEvent (stream : String) (view : StreamView) (e : SegmentEvent) :
    Except SegmentError StreamView :=
  if e.streamId ≠ stream then .ok view
  else
    match e.eventType with
    | .opened =>
        if view.active.isSome then .error (.conflict "stream opened a second active segment")
        else .ok { view with active := some ⟨e.sourceName, e.segmentId, e.segmentSeq⟩ }
    | .sealed =>
        if ∃ a ∈ view.active, a.sourceName = e.sourceName ∧ a.segmentId = e.segmentId then
          .ok { view with sealed := view.sealed ++ [e.postSha256], active := none }
        else .error (.conflict "sealed event does not match active segment")
    | .conflict => .ok { view with blocked := true }
    | _ => .ok view

/-- `_views_locked`, with the view of one stream. -/
def viewsLocked (stream : String) (s : SegmentState) : Except SegmentError StreamView :=
  match validateEventRows host s.events with
  | .error err => .error err
  | .ok view =>
      if view.pending.isSome then .error (.conflict "segment store has a pending intent")
      else
        match host.verify s with
        | some err => .error err
        | none => s.events.foldlM (declareEvent stream) {}

def openHeader (stream segmentId : String) (view : StreamView) : SegmentHeader where
  streamId := stream
  segmentId := segmentId
  segmentSeq := view.sealed.length + 1
  priorSegmentSha256 := view.sealed.getLast?.join

def openIntentOf (stream requestId segmentId : String) (view : StreamView) : SegmentEvent :=
  let intended := host.headerBytes (openHeader stream segmentId view)
  { requestId, action := .open, streamId := stream, segmentId
    segmentSeq := view.sealed.length + 1
    sourceName := sourceNameOf (view.sealed.length + 1) segmentId
    postSize := some intended.length, postSha256 := some (host.sha intended)
    eventType := .openIntent, fileIdentity := none
    intentSize := some intended.length, intentSha256 := some (host.sha intended)
    intentBytes := some intended }

/-- `_open_segment_locked` up to its `open_intent`: the intent, if a segment is to be opened. -/
def beginOpen (stream requestId segmentId : String) (s : SegmentState) :
    Except SegmentError (Option SegmentEvent) × SegmentState :=
  match viewsLocked host stream s with
  | .error err => (.error err, s)
  | .ok view =>
      if view.blocked then
        (.error (.conflict "segment stream is blocked by terminal conflict"), s)
      else if view.active.isSome then (.ok none, s)
      else
        let intent := openIntentOf host stream requestId segmentId view
        match publishEvent host intent s with
        | (.error err, s) => (.error err, s)
        | (.ok (), s) => (.ok (some intent), s)

/-- The new file with the bytes that were written to it. -/
def writeHeader (intent : SegmentEvent) (identity : FileIdentity) (written : Bytes)
    (s : SegmentState) : SegmentState :=
  s.setFile intent.streamId intent.sourceName (some ⟨identity, written⟩)

def finishOpen (intent : SegmentEvent) (identity : FileIdentity) (s : SegmentState) :
    Except SegmentError Unit × SegmentState :=
  publishEvent host (terminalOf intent .opened (some identity) none) s

def openSegment (stream requestId segmentId : String) (identity : FileIdentity)
    (s : SegmentState) : Except SegmentError Unit × SegmentState :=
  match beginOpen host stream requestId segmentId s with
  | (.error err, s) => (.error err, s)
  | (.ok none, s) => (.ok (), s)
  | (.ok (some intent), s) =>
      if (s.files intent.streamId intent.sourceName).isSome then (.error .fileExists, s)
      else
        finishOpen host intent identity
          (writeHeader intent identity (intent.intentBytes.getD []) s)

/-! ## Recovery -/

/-- `_conflict_pending`, which raises after it has published the conflict. -/
def conflictPending (intent : SegmentEvent) (reason : ConflictReason) (s : SegmentState) :
    Except SegmentError Unit × SegmentState :=
  match publishEvent host (terminalOf intent .conflict none (some reason)) s with
  | (.error err, s) => (.error err, s)
  | (.ok (), s) => (.error (.reason reason), s)

def publishTerminal (intent : SegmentEvent) (eventType : EventType) (identity : FileIdentity)
    (s : SegmentState) : Except SegmentError Unit × SegmentState :=
  publishEvent host (terminalOf intent eventType (some identity) none) s

/-- The file of the intent is created with the given identity if it is missing. -/
def recoverOpen (intent : SegmentEvent) (intended : Bytes) (identity : FileIdentity)
    (s : SegmentState) : Except SegmentError Unit × SegmentState :=
  match s.files intent.streamId intent.sourceName with
  | none => publishTerminal host intent .opened identity (writeHeader intent identity intended s)
  | some file =>
      if some file.bytes.length ≠ intent.postSize ∨ some (host.sha file.bytes) ≠ intent.postSha256 ∨
          file.bytes ≠ intended then
        conflictPending host intent .preimageMismatch s
      else publishTerminal host intent .opened file.identity s

/-- `_is_strict_intended_prefix`. -/
def isStrictIntendedPrefix (tail intended : Bytes) : Bool :=
  decide (0 < tail.length ∧ tail.length < intended.length ∧ tail <+: intended)

/-- What the recovery of an append or a seal writes over the bytes of its file: a tail that is
missing or torn is written again. -/
def repairedTail (host : SegmentHost) (intent : SegmentEvent) (intended data : Bytes) :
    Option Bytes :=
  let preSize := intent.preSize.getD 0
  if data.length < preSize ∨ some (host.sha (data.take preSize)) ≠ intent.preSha256 then none
  else if data.length = preSize then some (data ++ intended)
  else if some data.length = intent.postSize ∧ some (host.sha data) = intent.postSha256 ∧
      data.drop preSize = intended then some data
  else if isStrictIntendedPrefix (data.drop preSize) intended then
    some (data.take preSize ++ intended)
  else none

def recoverAppend (intent : SegmentEvent) (intended : Bytes) (s : SegmentState) :
    Except SegmentError Unit × SegmentState :=
  match s.files intent.streamId intent.sourceName with
  | none => conflictPending host intent .namespaceAmbiguous s
  | some file =>
      if some file.identity ≠ intent.fileIdentity then
        conflictPending host intent .fileIdentityMismatch s
      else
        match repairedTail host intent intended file.bytes with
        | none => conflictPending host intent .tailMismatch s
        | some final =>
            let s := s.setFile intent.streamId intent.sourceName (some { file with bytes := final })
            if some final.length ≠ intent.postSize ∨ some (host.sha final) ≠ intent.postSha256 then
              conflictPending host intent .tailMismatch s
            else publishTerminal host intent .appendCommitted file.identity s

/-- `_finish_seal_move` and the `sealed` event after it; the target is not there. -/
def finishSealMove (intent : SegmentEvent) (target : String) (file : SegmentFile)
    (s : SegmentState) : Except SegmentError Unit × SegmentState :=
  let s := (s.setFile intent.streamId intent.sourceName none).setFile intent.streamId target
    (some file)
  if some file.bytes.length ≠ intent.postSize ∨ some (host.sha file.bytes) ≠ intent.postSha256 then
    conflictPending host intent .preimageMismatch s
  else publishTerminal host intent .sealed file.identity s

def recoverSeal (intent : SegmentEvent) (intended : Bytes) (s : SegmentState) :
    Except SegmentError Unit × SegmentState :=
  let target := intent.targetName.getD "None"
  match s.files intent.streamId intent.sourceName, s.files intent.streamId target with
  | some _, some _ | none, none => conflictPending host intent .namespaceAmbiguous s
  | none, some file =>
      if host.windows then conflictPending host intent .renameResultAmbiguous s
      else if some file.identity ≠ intent.fileIdentity ∨
          some file.bytes.length ≠ intent.postSize ∨
          some (host.sha file.bytes) ≠ intent.postSha256 then
        conflictPending host intent .preimageMismatch s
      else publishTerminal host intent .sealed file.identity s
  | some file, none =>
      if some file.identity ≠ intent.fileIdentity then
        conflictPending host intent .fileIdentityMismatch s
      else
        match repairedTail host intent intended file.bytes with
        | none => conflictPending host intent .tailMismatch s
        | some final =>
            let s := s.setFile intent.streamId intent.sourceName (some { file with bytes := final })
            if some (host.sha final) ≠ intent.postSha256 then
              conflictPending host intent .tailMismatch s
            else finishSealMove host intent target { file with bytes := final } s

/-- `_recover_global_locked`; `identity` is that of a file it creates. -/
def recoverGlobal (identity : FileIdentity) (s : SegmentState) :
    Except SegmentError Unit × SegmentState :=
  match validateEventRows host s.events with
  | .error err => (.error err, s)
  | .ok view =>
      match view.pending with
      | none => (.ok (), s)
      | some intent =>
          match intent.intentBytes with
          | none => (.error (.conflict "pending segment intent blob is unavailable"), s)
          | some blob =>
              if some blob.length ≠ intent.intentSize ∨
                  some (host.sha blob) ≠ intent.intentSha256 then
                conflictPending host intent .intentBlobMismatch s
              else
                match intent.eventType with
                | .openIntent => recoverOpen host intent blob identity s
                | .appendIntent => recoverAppend host intent blob s
                | .sealIntent => recoverSeal host intent blob s
                | _ => (.error (.conflict "unknown pending segment intent"), s)

/-- `recover`, `append` and `seal` recover first and then go on. -/
def recoverThen {α : Type} (rest : SegmentState → Except SegmentError α × SegmentState)
    (identity : FileIdentity) (s : SegmentState) : Except SegmentError α × SegmentState :=
  match recoverGlobal host identity s with
  | (.error err, s) => (.error err, s)
  | (.ok (), s) => rest s

/-! ## What was published -/

variable {host} {s s' : SegmentState} {stream requestId segmentId : String}

theorem validateEventRows_append {events : List SegmentEvent} {view : JournalView}
    (h : validateEventRows host events = .ok view) (e : SegmentEvent) :
    validateEventRows host (events ++ [e]) = validateEvent host view e := by
  rw [validateEventRows] at h
  simp only [validateEventRows, List.foldlM_append, h, List.foldlM_cons, List.foldlM_nil, bind_pure]
  exact pure_bind view _

theorem validateEventRows_append_error {events : List SegmentEvent} {err : SegmentError}
    (h : validateEventRows host events = .error err) (e : SegmentEvent) :
    validateEventRows host (events ++ [e]) = .error err := by
  rw [validateEventRows] at h
  rw [validateEventRows, List.foldlM_append, h]
  rfl

/-- A conflict blocks its stream, and no other event blocks one. -/
theorem validateEvent_blocked {view view' : JournalView} {e : SegmentEvent}
    (h : validateEvent host view e = .ok view') :
    view'.blocked = view.blocked ++ if e.eventType = .conflict then [e.streamId] else [] := by
  unfold validateEvent at h
  split at h
  · cases h
  split at h
  · cases h
  split at h
  · next hintent =>
    have hne : e.eventType ≠ .conflict := by
      intro heq
      rw [heq] at hintent
      cases hintent
    split_ifs at h
    rw [← Except.ok.inj h, if_neg hne, List.append_nil]
  · split at h
    · cases h
    split at h
    · cases h
    split at h
    · cases h
    split at h
    · next hconflict =>
      split at h
      · cases h
      · rw [← Except.ok.inj h, if_pos hconflict]
    · next hconflict =>
      split at h
      · cases h
      · rw [← Except.ok.inj h, if_neg hconflict, List.append_nil]

theorem declareEvent_blocked {view view' : StreamView} {e : SegmentEvent}
    (h : declareEvent stream view e = .ok view') :
    view'.blocked = true ↔
      view.blocked = true ∨ (e.eventType = .conflict ∧ e.streamId = stream) := by
  unfold declareEvent at h
  split at h
  · next hstream =>
    rw [← Except.ok.inj h]
    simp [hstream]
  next hstream =>
  have hsame : e.streamId = stream := not_not.1 hstream
  split at h
  · next ht =>
    split at h
    · cases h
    · rw [← Except.ok.inj h]
      simp [ht]
  · next ht =>
    split at h
    · rw [← Except.ok.inj h]
      simp [ht]
    · cases h
  · next ht =>
    rw [← Except.ok.inj h]
    simp [ht, hsame]
  · next hopened hsealed hconflict =>
    rw [← Except.ok.inj h, or_iff_left fun hboth => hconflict hboth.1]

/-- The journal and the view of a stream agree on whether it is blocked. -/
theorem blocked_iff {events : List SegmentEvent} {journal : JournalView} {view : StreamView}
    (hj : validateEventRows host events = .ok journal)
    (hv : events.foldlM (declareEvent stream) {} = .ok view) :
    stream ∈ journal.blocked ↔ view.blocked = true := by
  induction events using List.reverseRecOn generalizing journal view with
  | nil =>
    obtain rfl := Except.ok.inj hj
    obtain rfl := Except.ok.inj hv
    simp
  | append_singleton events e ih =>
    simp only [List.foldlM_append, List.foldlM_cons, List.foldlM_nil, bind_pure] at hv
    cases hj' : validateEventRows host events with
    | error err =>
      rw [validateEventRows_append_error hj'] at hj
      cases hj
    | ok journal' =>
      cases hv' : events.foldlM (declareEvent stream) {} with
      | error err => rw [hv'] at hv; cases hv
      | ok view' =>
        rw [validateEventRows_append hj'] at hj
        rw [hv'] at hv
        rw [validateEvent_blocked hj, List.mem_append, ih hj' hv', declareEvent_blocked hv]
        refine or_congr_right ?_
        by_cases hconflict : e.eventType = .conflict
        · rw [if_pos hconflict, List.mem_singleton]
          exact ⟨fun h => ⟨hconflict, h.symm⟩, fun h => h.2.symm⟩
        · rw [if_neg hconflict]
          exact ⟨fun h => absurd h List.not_mem_nil, fun h => absurd h.1 hconflict⟩

/-- A terminal event is published for the pending intent. -/
theorem publishEvent_terminal {journal : JournalView} {intent : SegmentEvent}
    (hs : validateEventRows host s.events = .ok journal) (hpending : journal.pending = some intent)
    {t : EventType} (ht : t.isIntent = false) (identity : Option FileIdentity)
    (reason : Option ConflictReason) :
    publishEvent host (terminalOf intent t identity reason) s =
      (.ok (), { s with events := s.events ++ [terminalOf intent t identity reason] }) := by
  simp only [publishEvent, hs, hpending, terminalOf, ht]
  rw [if_neg (by simp), if_neg (by simp [Operation.id])]

theorem openIntentOf_fields (view : StreamView) {intended : Bytes}
    (h : intended = host.headerBytes (openHeader stream segmentId view)) :
    let intent := openIntentOf host stream requestId segmentId view
    intent.eventType = .openIntent ∧ intent.intentBytes = some intended ∧
      intent.intentSize = some intended.length ∧ intent.intentSha256 = some (host.sha intended) ∧
      intent.postSize = some intended.length ∧ intent.postSha256 = some (host.sha intended) := by
  subst h
  exact ⟨rfl, rfl, rfl, rfl, rfl, rfl⟩

theorem validateEvent_openIntent (view : StreamView) {journal : JournalView}
    (hpending : journal.pending = none) (hblocked : stream ∉ journal.blocked) :
    validateEvent host journal (openIntentOf host stream requestId segmentId view) =
      .ok { journal with pending := some (openIntentOf host stream requestId segmentId view) } := by
  simp [validateEvent, openIntentOf, hpending, hblocked, eventSemantics, actionMatches,
    EventType.isIntent, evidenceComplete]

/-- What is known after the intent of an open. -/
structure OpenBegun (host : SegmentHost) (intent : SegmentEvent) (intended : Bytes)
    (s : SegmentState) : Prop where
  journal : ∃ view, validateEventRows host s.events = .ok view ∧ view.pending = some intent
  intent : intent.eventType = .openIntent ∧ intent.intentBytes = some intended ∧
    intent.intentSize = some intended.length ∧ intent.intentSha256 = some (host.sha intended) ∧
    intent.postSize = some intended.length ∧ intent.postSha256 = some (host.sha intended)

theorem openBegun {intent : SegmentEvent}
    (h : beginOpen host stream requestId segmentId s = (.ok (some intent), s')) :
    ∃ intended, OpenBegun host intent intended s' := by
  unfold beginOpen at h
  split at h
  · cases h
  next view hview =>
  split_ifs at h with hblocked hactive
  · cases h
  · cases h
  unfold viewsLocked at hview
  split at hview
  · cases hview
  next journal hjournal =>
  split_ifs at hview with hpending
  split at hview
  · cases hview
  have hnone : journal.pending = none := by simpa using hpending
  simp only [publishEvent, hjournal, hnone] at h
  rw [if_neg (by simp), if_neg (by simp [openIntentOf, EventType.isIntent])] at h
  obtain ⟨hintent, rfl⟩ := Prod.mk.inj h
  obtain rfl := Option.some.inj (Except.ok.inj hintent)
  have hfree : stream ∉ journal.blocked := fun hmem => hblocked ((blocked_iff hjournal hview).1 hmem)
  have hpublished : validateEventRows host
      (s.events ++ [openIntentOf host stream requestId segmentId view]) =
        .ok { journal with pending := some (openIntentOf host stream requestId segmentId view) } := by
    rw [validateEventRows_append hjournal, validateEvent_openIntent view hnone hfree]
  exact ⟨host.headerBytes (openHeader stream segmentId view), ⟨⟨_, hpublished, rfl⟩,
    openIntentOf_fields view rfl⟩⟩

end ResearchLab.SegmentStore
