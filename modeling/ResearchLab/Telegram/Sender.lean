import ResearchLab.Foundation.Execution
import ResearchLab.Foundation.Sorting
import ResearchLab.Telegram.Preview
import Mathlib

/-!
# The sender and its two files

The outbox and the sent keys are written before and after every call of the transport. A write
may fail before or after it replaced the file, and a call may raise.
-/
namespace ResearchLab.Telegram
open Foundation

/-! ## The outbox -/

inductive OutboxStatus
  | completed | error | externalAckAmbiguous | operatorSuppressedNoReplay | pending
  | skippedNoToken
  deriving DecidableEq, Repr

namespace OutboxStatus

def word : OutboxStatus → String
  | completed => "completed"
  | error => "error"
  | externalAckAmbiguous => "external_ack_ambiguous"
  | operatorSuppressedNoReplay => "operator_suppressed_no_replay"
  | pending => "pending"
  | skippedNoToken => "skipped_no_token"

def all : List OutboxStatus :=
  [completed, error, externalAckAmbiguous, operatorSuppressedNoReplay, pending, skippedNoToken]

def ofWord? (s : String) : Option OutboxStatus := all.find? fun status => status.word = s

theorem ofWord_word (status : OutboxStatus) : ofWord? status.word = some status := by
  cases status <;> decide

end OutboxStatus

structure OutboxItem where
  schema : String
  deliveryKey : String
  previewId : String
  instructionId : String
  sourceSignalId : String
  telegramCardId : String
  recipientHash : String
  status : String
  transportKind : String
  messageId : Option ℤ
  photoMessageId : Option ℤ
  photoStatus : String
  textStatus : String
  problem : String
  paperOnly : Bool
  executionAllowed : Bool
  deriving DecidableEq

def OutboxItem.standing (r : OutboxItem) : Option OutboxStatus := OutboxStatus.ofWord? r.status

/-- What `_load_outbox` asks of one item. -/
def OutboxItem.Valid (r : OutboxItem) : Prop :=
  r.schema = "paper_telegram_delivery_outbox_item.v1" ∧ r.paperOnly = true ∧
    r.executionAllowed = false ∧ r.standing.isSome = true

instance OutboxItem.decidableValid (r : OutboxItem) : Decidable r.Valid :=
  inferInstanceAs (Decidable (_ ∧ _ ∧ _ ∧ _))

/-- A file as its reader finds it; `invalid` is text that is no JSON of the expected shape. -/
inductive Stored (α : Type)
  | missing
  | unreadable
  | invalid
  | document (a : α)

structure OutboxDocument where
  schema : String
  items : List OutboxItem

structure SentKeysDocument where
  schema : String
  sentKeys : List String

abbrev Outbox := Table String OutboxItem

def addOutboxItem (out : Outbox) (item : OutboxItem) : Except String Outbox :=
  if ¬ item.Valid then .error "delivery_outbox_invalid"
  else if item.deliveryKey = "" ∨ (out.row item.deliveryKey).isSome then
    .error "delivery_outbox_invalid"
  else .ok (out.insert item.deliveryKey item)

def loadOutbox : Stored OutboxDocument → Except String Outbox
  | .missing => .ok Table.empty
  | .unreadable => .error "delivery_outbox_unreadable"
  | .invalid => .error "delivery_outbox_invalid"
  | .document d =>
      if d.schema ≠ "paper_telegram_delivery_outbox.v1" then .error "delivery_outbox_invalid"
      else d.items.foldlM addOutboxItem Table.empty

/-- The file that `_save_outbox` writes. -/
def outboxDocument (outbox : Outbox) : OutboxDocument :=
  ⟨"paper_telegram_delivery_outbox.v1", (sortOn id outbox.keys).filterMap outbox.row⟩

def loadSentKeys : Stored SentKeysDocument → Except String (List String)
  | .missing => .ok []
  | .unreadable => .error "delivery_sent_keys_unreadable"
  | .invalid => .error "delivery_sent_keys_invalid"
  | .document d =>
      if d.schema ≠ "paper_telegram_sent_keys.v1" ∨ "" ∈ d.sentKeys then
        .error "delivery_sent_keys_invalid"
      else .ok d.sentKeys.dedup

def sentKeysDocument (sentKeys : List String) : SentKeysDocument :=
  ⟨"paper_telegram_sent_keys.v1", sortOn id sentKeys⟩

/-! ## Effects -/

/-- What may be raised; an `OSError` and any other exception by name, and what `except Exception`
does not catch. -/
inductive Raised
  | outboxUnavailable (problem : String)
  | notAttempted
  | osError (name : String)
  | exception (name : String)
  | interrupt
  deriving DecidableEq

inductive ChartProblem
  | invalidChartPath | notPng | missing | outsidePrivateReviews
  deriving DecidableEq

def ChartProblem.word : ChartProblem → String
  | invalidChartPath => "invalid_chart_path"
  | notPng => "chart_not_png"
  | missing => "chart_missing"
  | outsidePrivateReviews => "chart_outside_private_reviews"

inductive Effect (φ : Type)
  | chartPath (raw : String)
  | chartPayload (path : String)
  | readOutbox
  | readSentKeys
  | writeOutbox (document : OutboxDocument)
  | writeSentKeys (document : SentKeysDocument)
  | request (a : Attempt φ)
  | answer

variable {φ : Type}

/-- The answers; a call of the transport is its request and what comes back, the id of a message
or `None`. -/
abbrev Answer : Effect φ → Type
  | .chartPath _ => Except Raised (String ⊕ ChartProblem)
  | .chartPayload _ => Except Raised Bytes
  | .readOutbox => Except Raised (Stored OutboxDocument)
  | .readSentKeys => Except Raised (Stored SentKeysDocument)
  | .writeOutbox _ => Except Raised Unit
  | .writeSentKeys _ => Except Raised Unit
  | .request _ => Unit
  | .answer => Except Raised (Option ℤ)

abbrev Script (φ α : Type) := Prog (Effect φ) Answer Raised α

inductive WriteOutcome
  | done
  | failed (replaced : Bool) (x : Raised)

/-- What decides an answer beside the files. -/
structure Circumstance where
  chart : Except Raised (String ⊕ ChartProblem)
  payload : Except Raised Bytes
  readFault : Option Raised
  write : WriteOutcome
  reply : Except Raised (Option ℤ)

/-- What happened on the private root. -/
inductive Event (φ : Type)
  | outbox (items : List OutboxItem)
  | request (a : Attempt φ)
  | answer (r : Except Raised (Option ℤ))

/-- The files of the private root, and what happened to the outbox and the transport, the latest
first. -/
structure Root (φ : Type) where
  outbox : Stored OutboxDocument
  sentKeys : Stored SentKeysDocument
  trace : List (Event φ)

def OutboxDocument.itemsOf : Stored OutboxDocument → List OutboxItem
  | .document d => d.items
  | _ => []

/-- A root as the first run finds it. -/
def Root.found (outbox : Stored OutboxDocument) (sentKeys : Stored SentKeysDocument) : Root φ :=
  ⟨outbox, sentKeys, [.outbox (OutboxDocument.itemsOf outbox)]⟩

def Root.saveOutbox (s : Root φ) (d : OutboxDocument) : Root φ :=
  { s with outbox := .document d, trace := .outbox d.items :: s.trace }

def WriteOutcome.answer : WriteOutcome → Except Raised Unit
  | .done => .ok ()
  | .failed _ x => .error x

def WriteOutcome.replaced : WriteOutcome → Bool
  | .done => true
  | .failed replaced _ => replaced

def files : Device (Effect φ) Answer Circumstance (Root φ) where
  respond
    | .chartPath _, c, s => (c.chart, s)
    | .chartPayload _, c, s => (c.payload, s)
    | .readOutbox, c, s => ((c.readFault.map .error).getD (.ok s.outbox), s)
    | .readSentKeys, c, s => ((c.readFault.map .error).getD (.ok s.sentKeys), s)
    | .writeOutbox d, c, s =>
        (c.write.answer, if c.write.replaced then s.saveOutbox d else s)
    | .writeSentKeys d, c, s =>
        (c.write.answer, if c.write.replaced then { s with sentKeys := .document d } else s)
    | .request a, _, s => ((), { s with trace := .request a :: s.trace })
    | .answer, c, s => (c.reply, { s with trace := .answer c.reply :: s.trace })

/-- An effect whose answer may be an exception. -/
def attempting {α : Type} (e : Effect φ) (cast : Answer e → Except Raised α) : Script φ α :=
  (Prog.perform e).bind fun r => .ofExcept (cast r)

def writeOutbox (outbox : Outbox) : Script φ Unit :=
  attempting (.writeOutbox (outboxDocument outbox)) id

def saveSentKeys (sentKeys : List String) : Script φ Unit :=
  attempting (.writeSentKeys (sentKeysDocument sentKeys)) id

/-- One call of the transport. -/
def callTransport (a : Attempt φ) : Script φ (Option ℤ) :=
  (Prog.perform (.request a)).bind fun _ => attempting .answer id

def orUnavailable {α : Type} : Except String α → Except Raised α
  | .ok a => .ok a
  | .error problem => .error (.outboxUnavailable problem)

/-! ## Deliveries -/

inductive DeliveryStatus
  | sent | skippedNoToken | error | externalAckAmbiguous | invalidPreview
  | skippedOperatorSuppressed | pendingDeliveryClaim | skippedDuplicate | outboxUnavailable
  | dryRun | skippedNoSubscribers
  deriving DecidableEq, Repr

/-- `PaperTelegramDelivery` without its constant fields. -/
structure Delivery where
  previewId : String
  instructionId : String
  sourceSignalId : String
  pair : String
  timeframe : String
  side : String
  setupFamily : String
  status : DeliveryStatus
  messageId : Option ℤ
  problem : String
  recipientHash : String
  deliveryKey : String
  transportKind : String
  chartAvailable : Bool
  chartSent : Bool
  chartProblem : String
  deriving DecidableEq

/-- What a delivery reports beside its preview. -/
structure Report where
  status : DeliveryStatus
  messageId : Option ℤ := none
  problem : String := ""
  deliveryKey : String := ""
  transportKind : String := ""
  chartAvailable : Bool := false
  chartSent : Bool := false
  chartProblem : String := ""

variable (py : Python φ)

def deliveryFromPreview (item : Item φ) (recipientId : String) (r : Report) : Delivery where
  previewId := item.text py "preview_id"
  instructionId := item.text py "instruction_id"
  sourceSignalId := item.text py "source_signal_id"
  pair := item.text py "pair"
  timeframe := item.text py "timeframe"
  side := item.text py "side"
  setupFamily := item.text py "setup_family"
  status := r.status
  messageId := r.messageId
  problem := r.problem
  recipientHash := recipientHash py recipientId
  deliveryKey := r.deliveryKey
  transportKind := r.transportKind
  chartAvailable := r.chartAvailable
  chartSent := r.chartSent
  chartProblem := r.chartProblem

def transportKindOf (a : Attempt φ) : String :=
  if a.chart.isSome then "telegram_photo_caption" else "telegram_text"

/-- What came of a call, as the outbox and the delivery report it. -/
structure Outcome where
  status : OutboxStatus
  messageId : Option ℤ := none
  photoMessageId : Option ℤ := none
  photoStatus : String
  textStatus : String
  problem : String := ""
  chartProblem : String := ""

def outboxRecord (a : Attempt φ) (o : Outcome) : OutboxItem where
  schema := "paper_telegram_delivery_outbox_item.v1"
  deliveryKey := deliveryKey py a
  previewId := a.item.text py "preview_id"
  instructionId := a.item.text py "instruction_id"
  sourceSignalId := a.item.text py "source_signal_id"
  telegramCardId := a.item.text py "telegram_card_id"
  recipientHash := recipientHash py a.recipientId
  status := o.status.word
  transportKind := transportKindOf a
  messageId := o.messageId
  photoMessageId := o.photoMessageId
  photoStatus := o.photoStatus
  textStatus := o.textStatus
  problem := o.problem
  paperOnly := true
  executionAllowed := false

/-- `outbox[key] = record`. -/
def putRecord (outbox : Outbox) (r : OutboxItem) : Outbox :=
  outbox.upsert r.deliveryKey r fun _ => r

def upsertOutboxRecord (outbox : Outbox) (r : OutboxItem) : Script φ Outbox :=
  (writeOutbox (putRecord outbox r)).bind fun _ => .ret (putRecord outbox r)

/-- What a run carries from one delivery to the next. -/
structure Memory where
  outbox : Outbox
  sentKeys : List String

def Memory.addSent (m : Memory) (key : String) : Memory :=
  { m with sentKeys := m.sentKeys.insert key }

/-- The first record with a status under one of the keys. -/
def recordWith (outbox : Outbox) (keys : List String) (status : OutboxStatus) :
    Option OutboxItem :=
  keys.findSome? fun key => (outbox.row key).filter fun r => r.standing = some status

/-! ## One delivery -/

def pendingOutcome (a : Attempt φ) : Outcome where
  status := .pending
  photoStatus := if a.chart.isSome then "pending" else "not_applicable"
  textStatus := "pending"

/-- The id of a message, or `None` where no token is configured. -/
def repliedOutcome (a : Attempt φ) : Option ℤ → Outcome
  | some id => {
      status := .completed
      messageId := some id
      photoMessageId := if a.chart.isSome then some id else none
      photoStatus := if a.chart.isSome then "acknowledged" else "not_applicable"
      textStatus := "acknowledged" }
  | none => {
      status := .skippedNoToken
      photoStatus := if a.chart.isSome then "unacknowledged" else "not_applicable"
      textStatus := "unacknowledged"
      problem := "telegram_token_not_configured"
      chartProblem := if a.chart.isSome then "photo_message_id_missing" else "" }

/-- The handlers around the first write and the call. -/
def raisedOutcome (a : Attempt φ) : Raised → Script φ Outcome
  | .notAttempted => .ret {
      status := .error
      photoStatus := if a.chart.isSome then "not_attempted" else "not_applicable"
      textStatus := "not_attempted"
      problem := "telegram_request_not_attempted" }
  | .interrupt => .raise .interrupt
  | .outboxUnavailable _ => .ret (ambiguous "DeliveryOutboxUnavailable")
  | .osError name => .ret (ambiguous name)
  | .exception name => .ret (ambiguous name)
where
  ambiguous (name : String) : Outcome := {
    status := .externalAckAmbiguous
    photoStatus := if a.chart.isSome then "unknown" else "not_applicable"
    textStatus := if a.chart.isSome then "unknown" else "failed"
    problem := (if a.chart.isSome then "photo_caption_ack_ambiguous:" else
      "text_ack_ambiguous:") ++ name }

def OutboxStatus.delivered : OutboxStatus → DeliveryStatus
  | .completed => .sent
  | .skippedNoToken => .skippedNoToken
  | .error => .error
  | _ => .externalAckAmbiguous

def outcomeReport (a : Attempt φ) (o : Outcome) : Report where
  status := o.status.delivered
  messageId := o.messageId
  problem := o.problem
  deliveryKey := deliveryKey py a
  transportKind := transportKindOf a
  chartAvailable := a.chart.isSome
  chartSent := o.photoMessageId.isSome
  chartProblem := o.chartProblem

/-- The record of the outcome. A sent card is first added to the sent keys; where that fails, its
record asks for an operator. -/
def recordOutcome (a : Attempt φ) (m : Memory) (o : Outcome) : Script φ (Delivery × Memory) :=
  if o.status = .completed then
    (Prog.perform (.writeSentKeys (sentKeysDocument (m.addSent (deliveryKey py a)).sentKeys))).bind
      fun written => match (written : Except Raised Unit) with
      | .ok _ =>
          (upsertOutboxRecord m.outbox (outboxRecord py a o)).bind fun outbox =>
            .ret (deliveryFromPreview py a.item a.recipientId (outcomeReport py a o),
              { m.addSent (deliveryKey py a) with outbox := outbox })
      | .error (.osError _) =>
          let o' : Outcome := { o with
            status := .externalAckAmbiguous, problem := "sent_key_write_failed" }
          (upsertOutboxRecord m.outbox (outboxRecord py a o')).bind fun outbox =>
            .ret (deliveryFromPreview py a.item a.recipientId (outcomeReport py a o'),
              { m with outbox := outbox })
      | .error x => .raise x
  else
    (upsertOutboxRecord m.outbox (outboxRecord py a o)).bind fun outbox =>
      .ret (deliveryFromPreview py a.item a.recipientId (outcomeReport py a o),
        { m with outbox := outbox })

/-- The outbox says `pending` before the transport is called; what this writes and calls may
raise. -/
def attemptDelivery (a : Attempt φ) (m : Memory) : Script φ (Delivery × Memory) :=
  let outbox := putRecord m.outbox (outboxRecord py a (pendingOutcome a))
  let call : Script φ Outcome := (writeOutbox outbox).bind fun _ =>
    (callTransport a).bind fun id => .ret (repliedOutcome a id)
  (call.catching (raisedOutcome a)).bind (recordOutcome py a { m with outbox := outbox })

/-- A delivery that an earlier record decides. -/
def standingReport (a : Attempt φ) (status : DeliveryStatus) (problem : String)
    (r : OutboxItem) : Report where
  status := status
  messageId := r.messageId
  problem := problem
  deliveryKey := if r.deliveryKey ≠ "" then r.deliveryKey else deliveryKey py a
  transportKind := if r.transportKind ≠ "" then r.transportKind else transportKindOf a
  chartAvailable := a.chart.isSome
  chartSent := r.photoMessageId.isSome

def duplicateReport (a : Attempt φ) : Report where
  status := .skippedDuplicate
  problem := "already_sent_to_recipient"
  deliveryKey := deliveryKey py a
  transportKind := transportKindOf a
  chartAvailable := a.chart.isSome

/-- A delivery that was made before is counted as sent under its current key. -/
def skipDuplicate (a : Attempt φ) (m : Memory) (r : Report) : Script φ (Delivery × Memory) :=
  let m' := m.addSent (deliveryKey py a)
  (saveSentKeys m'.sentKeys).bind fun _ =>
    .ret (deliveryFromPreview py a.item a.recipientId r, m')

/-- The records under the keys decide in this order, then the sent keys. -/
def sendCaptured (a : Attempt φ) (m : Memory) : Script φ (Delivery × Memory) :=
  let keys := deliveryKeys py a
  let standing := recordWith m.outbox keys
  let skip (r : Report) : Script φ (Delivery × Memory) :=
    .ret (deliveryFromPreview py a.item a.recipientId r, m)
  match standing .operatorSuppressedNoReplay, standing .externalAckAmbiguous, standing .pending,
      standing .completed with
  | some r, _, _, _ =>
      skip (standingReport py a .skippedOperatorSuppressed "operator_suppressed_no_replay" r)
  | none, some r, _, _ =>
      skip (standingReport py a .externalAckAmbiguous "external_ack_requires_operator_recovery" r)
  | none, none, some r, _ =>
      skip (standingReport py a .pendingDeliveryClaim "delivery_owned_by_existing_attempt" r)
  | none, none, none, some r =>
      skipDuplicate py a m (standingReport py a .skippedDuplicate "already_sent_to_recipient" r)
  | none, none, none, none =>
      if keys.any (· ∈ m.sentKeys) then skipDuplicate py a m (duplicateReport py a)
      else attemptDelivery py a m

def safeChartPath (item : Item φ) : Script φ (Option String × String) :=
  let raw := py.strip (item.text py "chart_path")
  if raw = "" then .ret (none, "")
  else attempting (.chartPath raw) fun r => r.map fun
    | .inl path => (some path, "")
    | .inr problem => (none, problem.word)

/-- The chart of a preview is checked and captured before anything is decided. -/
def sendItem (photo : Bool) (m : Memory) (job : Item φ × String) :
    Script φ (Delivery × Memory) :=
  let item := job.1
  let refuse (r : Report) : Script φ (Delivery × Memory) :=
    .ret (deliveryFromPreview py item job.2 { r with status := .invalidPreview }, m)
  (safeChartPath py item).bind fun
    | (none, chartProblem) =>
        if py.strip (item.text py "chart_path") ≠ "" then
          let problem := if chartProblem ≠ "" then chartProblem else "invalid_chart_path"
          refuse { status := .invalidPreview, problem := problem,
                   transportKind := "telegram_photo_caption", chartProblem := problem }
        else sendCaptured py ⟨item, job.2, none⟩ m
    | (some path, _) =>
        let refusePhoto (problem : String) := refuse
          { status := .invalidPreview, problem := problem,
            transportKind := "telegram_photo_caption", chartAvailable := true,
            chartProblem := problem }
        if photo = false then refusePhoto "photo_transport_not_configured"
        else if maxPhotoCaptionChars < (item.text py "text").length then
          refusePhoto "telegram_photo_caption_too_long"
        else
          (Prog.perform (.chartPayload path)).bind fun captured =>
            match (captured : Except Raised Bytes) with
            | .ok payload => sendCaptured py ⟨item, job.2, some (path, payload)⟩ m
            | .error (.osError _) => refusePhoto "chart_content_unreadable"
            | .error x => .raise x

/-! ## A run -/

/-- A delivery that cannot be decided without the outbox. -/
def unavailableDelivery (problem : String) (status : DeliveryStatus) (job : Item φ × String) :
    Script φ Delivery :=
  (safeChartPath py job.1).bind fun chart => (safeChartPath py job.1).bind fun chart' =>
    .ret (deliveryFromPreview py job.1 job.2 {
      status := status
      problem := problem
      deliveryKey := deliveryKey py ⟨job.1, job.2, none⟩
      transportKind := "telegram_text"
      chartAvailable := chart.1.isSome
      chartProblem := chart'.2 })

def unavailableDeliveries (problem : String) (status : DeliveryStatus)
    (jobs : List (Item φ × String)) : Script φ (List Delivery) :=
  Prog.forEach (fun ds job => (unavailableDelivery py problem status job).bind fun d =>
    .ret (ds ++ [d])) [] jobs

/-- Each preview for each recipient. -/
def jobsOf (items : List (Item φ)) (recipientIds : List String) : List (Item φ × String) :=
  items.flatMap fun item => recipientIds.map fun recipientId => (item, recipientId)

def readOutbox : Script φ (Except String Outbox) :=
  attempting .readOutbox fun r => r.map loadOutbox

def readSentKeys : Script φ (List String) :=
  attempting .readSentKeys fun r => r.bind fun d => orUnavailable (loadSentKeys d)

def sendItems (photo : Bool) (items : List (Item φ)) (recipientIds sentKeys : List String) :
    Script φ (List Delivery × List String) :=
  readOutbox.bind fun
    | .error problem =>
        (unavailableDeliveries py problem .outboxUnavailable (jobsOf items recipientIds)).bind
          fun ds => .ret (ds, sentKeys)
    | .ok outbox =>
        (Prog.forEach (Prog.collecting (sendItem py photo)) ([], ⟨outbox, sentKeys⟩)
          (jobsOf items recipientIds)).bind fun acc => .ret (acc.1, acc.2.sentKeys)

/-- The counts of the preview snapshot, and whether there is one. -/
structure Source where
  found : Bool
  recordsRead : ℤ
  skippedQualityGate : ℤ
  skippedNonActionable : ℤ

/-- The arguments of a run, the previews it read and the digest that it would render for a
reason. -/
structure Run (φ : Type) where
  items : List (Item φ)
  source : Source
  limit : ℤ
  apply : Bool
  paperChatConfigured : Bool
  recipientIds : List String
  sendText : Bool
  sendPhoto : Bool
  statusDigest : Bool
  digest : String → Item φ

namespace Run

def recipients (run : Run φ) : List String :=
  (run.recipientIds.map py.strip).filter (· ≠ "")

/-- The first previews without a problem, as many as the limit lets through. -/
def accepted (run : Run φ) : List (Item φ) :=
  (run.items.filter fun item => (previewProblem py item).isNone).take run.limit.toNat

def statusDigestReason (run : Run φ) (deliveries : List Delivery) : String :=
  let accepted := run.accepted py
  let recipients := run.recipients py
  let count (status : DeliveryStatus) := deliveries.countP fun d => d.status = status
  if run.source.found = false then ""
  else if accepted ≠ [] ∧ count .sent = 0 ∧ 0 < recipients.length ∧
      accepted.length * recipients.length ≤ count .skippedDuplicate then "all_cards_duplicate"
  else if accepted = [] ∧ 0 < run.source.recordsRead ∧ 0 < run.source.skippedQualityGate then
    "quality_gate_no_cards"
  else if accepted = [] ∧ 0 < run.source.recordsRead ∧ 0 < run.source.skippedNonActionable then
    "non_actionable_no_cards"
  else ""

instance decidableNoItems (l : List (Item φ)) : Decidable (l = []) :=
  decidable_of_iff (l.isEmpty = true) List.isEmpty_iff

/-- The entries of a report in the order in which they are added. -/
structure Deliveries where
  refused : List Delivery
  unaddressed : List Delivery := []
  cards : List Delivery := []
  digest : List Delivery := []
  unavailable : List Delivery := []

/-- What the run returns. -/
def Deliveries.all (d : Deliveries) : List Delivery :=
  d.refused ++ d.unaddressed ++ d.cards ++ d.digest ++ d.unavailable

def refused (run : Run φ) : List Delivery :=
  run.items.filterMap fun item => (previewProblem py item).map fun problem =>
    deliveryFromPreview py item "" { status := .invalidPreview, problem := problem }

def dryRunDelivery (item : Item φ) : Script φ Delivery :=
  (safeChartPath py item).bind fun chart => (safeChartPath py item).bind fun chart' =>
    .ret (deliveryFromPreview py item "" {
      status := .dryRun, chartAvailable := chart.1.isSome, chartProblem := chart'.2 })

/-- The recipients that a run may send to: nobody in a dry run, or where no chat or no transport is
configured. -/
def addressed (run : Run φ) : List String :=
  if run.apply ∧ run.paperChatConfigured ∧ run.sendText then run.recipients py else []

/-- A run that sends to nobody reports its previews. -/
def unaddressed (run : Run φ) : Script φ (List Delivery) :=
  if run.apply = false then
    Prog.forEach (fun ds item => (dryRunDelivery py item).bind fun d => .ret (ds ++ [d])) []
      (run.accepted py)
  else .ret ((run.accepted py).map fun item => deliveryFromPreview py item "" {
    status := .skippedNoSubscribers, problem := "paper_subscribers_not_configured" })

def jobs (run : Run φ) : List (Item φ × String) := jobsOf (run.accepted py) (run.addressed py)

/-- What is done first under the delivery claim. -/
def sendCards (run : Run φ) : Script φ (List Delivery × List String) :=
  readSentKeys.bind fun sentKeys =>
    sendItems py run.sendPhoto (run.accepted py) (run.addressed py) sentKeys

/-- The digest of a run without a card to show. -/
def sendDigest (run : Run φ) (first : List Delivery × List String) : Script φ (List Delivery) :=
  let reason := run.statusDigestReason py first.1
  if run.statusDigest ∧ reason ≠ "" then
    (sendItems py run.sendPhoto [run.digest reason] (run.addressed py) first.2).bind
      fun second => .ret second.1
  else .ret []

/-- The handlers around the claim. What was collected before stays in the report. -/
def reportUnavailable (run : Run φ) (sofar : Deliveries) : Raised → Script φ Deliveries
  | .outboxUnavailable problem =>
      (unavailableDeliveries py problem .outboxUnavailable (run.jobs py)).bind fun ds =>
        .ret { sofar with unavailable := ds }
  | .osError _ =>
      (unavailableDeliveries py "delivery_claim_unavailable" .pendingDeliveryClaim
        (run.jobs py)).bind fun ds => .ret { sofar with unavailable := ds }
  | x => .raise x

/-- `send_paper_telegram_previews` once it has the delivery claim, with its handlers. -/
def sendPaperTelegramPreviews (run : Run φ) : Script φ Deliveries :=
  let start : Deliveries := { refused := run.refused py }
  if run.addressed py = [] then
    (run.unaddressed py).bind fun ds => .ret { start with unaddressed := ds }
  else
    (run.sendCards py).tryElse
      (fun first => (run.sendDigest py first).tryElse
        (fun ds => .ret { start with cards := first.1, digest := ds })
        (run.reportUnavailable py { start with cards := first.1 }))
      (run.reportUnavailable py start)

end Run
end ResearchLab.Telegram
