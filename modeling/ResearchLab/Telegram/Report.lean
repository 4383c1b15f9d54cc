import Mathlib
import ResearchLab.Foundation.Execution
import ResearchLab.Foundation.Related
import ResearchLab.Telegram.Delivery

/-!
# What a run reports

A run of the sender returns one entry for each pair of an accepted preview and a recipient, unless
an error leaves the sending of the cards behind a call of the transport, or leaves the status
digest. The handlers then report every pair as if nothing had been tried.
-/
namespace ResearchLab.Telegram
open Foundation

variable {φ : Type} (py : Python φ)

/-! ## Faults -/

/-- Reads and writes of files may fail with an `OSError`, a write before or after it replaced its
file. The transport may answer anything that does not end the process. -/
structure OnlyFilesFail (c : Circumstance) : Prop where
  chart : ∀ x, c.chart ≠ .error x
  payload : ∀ x, c.payload = .error x → ∃ name, x = .osError name
  read : ∀ x, c.readFault = some x → ∃ name, x = .osError name
  write : ∀ replaced x, c.write = .failed replaced x → ∃ name, x = .osError name
  reply : c.reply ≠ .error .interrupt

abbrev FileFault := { c : Circumstance // OnlyFilesFail c }

/-- The files and the transport under such faults. -/
def faultyFiles : Device (Effect φ) Answer FileFault (Root φ) where
  respond e c s := files.respond e c.1 s

/-- How the delivery claim was taken. -/
inductive Claim
  | taken | held | failed

def Claim.problem : Claim → String
  | held => "delivery_claim_held_by_other_process"
  | _ => "delivery_claim_unavailable"

namespace Run

/-- `send_paper_telegram_previews`: a run that sends to nobody asks for no claim. -/
def deliveries (run : Run φ) (claim : Claim) : Script φ Deliveries :=
  match claim with
  | .taken => run.sendPaperTelegramPreviews py
  | _ =>
      if run.addressed py = [] then run.sendPaperTelegramPreviews py
      else (unavailableDeliveries py claim.problem .pendingDeliveryClaim (run.jobs py)).bind
        fun ds => .ret { refused := run.refused py, unavailable := ds }

end Run

/-! ## What a report says -/

/-- What happened in a round, the latest first. -/
def eventsOf (span : Span (Root φ)) : List (Event φ) :=
  span.after.trace.take (span.after.trace.length - span.before.trace.length)

/-- The transport was called in a round. -/
def called (span : Span (Root φ)) : Bool := (eventsOf span).any fun
  | .request _ => true
  | _ => false

/-- The transport answered a call with the id of a message between two states. -/
def Acknowledged (s s' : Root φ) (a : Attempt φ) (id : ℤ) : Prop :=
  ∃ older, (.answer (.ok (some id)) :: .request a :: older) <:+ s'.trace ∧ s.trace <:+ older

/-- An entry of a report was made for a pair. -/
def MadeFor (pair : Item φ × String) (d : Delivery) : Prop :=
  ∃ r, d = deliveryFromPreview py pair.1 pair.2 r

/-- The statuses of the handlers. -/
def DeliveryStatus.unavailable : DeliveryStatus → Bool
  | .pendingDeliveryClaim => true
  | .outboxUnavailable => true
  | _ => false

/-- The rounds of `_send_items`, one for each pair. -/
def itemSpans (photo : Bool) (items : List (Item φ)) (recipientIds sentKeys : List String)
    (cs : Stream' FileFault) (s : Root φ) : List (Span (Root φ)) :=
  let read := readOutbox.exec faultyFiles cs s
  match read.result with
  | .ok (.ok outbox) =>
      Prog.spans faultyFiles (Prog.collecting (sendItem py photo)) ([], ⟨outbox, sentKeys⟩)
        (jobsOf items recipientIds) read.rest read.state
  | _ => []

namespace Run

/-- The rounds of the cards. -/
def cardSpans (run : Run φ) (claim : Claim) (cs : Stream' FileFault) (s : Root φ) :
    List (Span (Root φ)) :=
  let read := readSentKeys.exec faultyFiles cs s
  match claim, read.result with
  | .taken, .ok sentKeys =>
      itemSpans py run.sendPhoto (run.accepted py) (run.addressed py) sentKeys read.rest read.state
  | _, _ => []

/-- A report that tells the truth about the run behind it. -/
structure Truthful (run : Run φ) (claim : Claim) (cs : Stream' FileFault) (s s' : Root φ)
    (d : Deliveries) : Prop where
  /-- One entry for every pair. -/
  pairs : List.Forall₂ (MadeFor py) (run.jobs py) (d.cards ++ d.unavailable)
  /-- What is reported as sent was acknowledged in this run. -/
  sent : ∀ entry ∈ d.all, entry.status = .sent → ∃ a id,
    MadeFor py (a.item, a.recipientId) entry ∧ entry.messageId = some id ∧ Acknowledged s s' a id
  /-- A pair with a call is not reported as if nothing had been tried. -/
  tried : ∀ (n : ℕ) span entry, (run.cardSpans py claim cs s)[n]? = some span →
    (d.cards ++ d.unavailable)[n]? = some entry → called span = true →
    entry.status.unavailable = false

/-- The run returns a report that tells the truth. -/
def ReportsTruth (run : Run φ) (claim : Claim) (cs : Stream' FileFault) (s : Root φ) : Prop :=
  let ending := (run.deliveries py claim).exec faultyFiles cs s
  ∃ d, ending.result = .ok d ∧ run.Truthful py claim cs s ending.state d

/-- An error leaves the sending of the cards after the transport was called. -/
def CardsFailAfterCall (run : Run φ) (cs : Stream' FileFault) (s : Root φ) : Prop :=
  (∃ x, ((run.sendCards py).exec faultyFiles cs s).result = .error x) ∧
    ∃ span ∈ run.cardSpans py .taken cs s, called span = true

/-- An error leaves the status digest while there are pairs. -/
def DigestFails (run : Run φ) (cs : Stream' FileFault) (s : Root φ) : Prop :=
  let cards := (run.sendCards py).exec faultyFiles cs s
  run.jobs py ≠ [] ∧ ∃ first x, cards.result = .ok first ∧
    ((run.sendDigest py first).exec faultyFiles cards.rest cards.state).result = .error x

end Run

variable {py} {a : Attempt φ} {s s' : Root φ}

/-! ## Histories grow -/

theorem respond_trace (e : Effect φ) (c : FileFault) (s : Root φ) :
    s.trace <:+ (faultyFiles.respond e c s).2.trace := by
  cases e with
  | writeOutbox d =>
      simp only [faultyFiles, files]
      split_ifs
      · exact List.suffix_cons ..
      · exact List.suffix_rfl
  | writeSentKeys d =>
      simp only [faultyFiles, files]
      split_ifs <;> exact List.suffix_rfl
  | request a => exact List.suffix_cons ..
  | answer => exact List.suffix_cons ..
  | chartPath raw => exact List.suffix_rfl
  | chartPayload path => exact List.suffix_rfl
  | readOutbox => exact List.suffix_rfl
  | readSentKeys => exact List.suffix_rfl

theorem exec_trace {α : Type} (p : Script φ α) (cs : Stream' FileFault) (s : Root φ) :
    s.trace <:+ (p.exec faultyFiles cs s).state.trace :=
  Prog.exec_rel (R := fun s s' => s.trace <:+ s'.trace) (fun _ => List.suffix_rfl)
    (fun {a b c} (h : a.trace <:+ b.trace) (h' : b.trace <:+ c.trace) => h.trans h') respond_trace p cs s

theorem Acknowledged.mono {s₀ s₁ : Root φ} {id : ℤ} (h : Acknowledged s s' a id)
    (hbefore : s₀.trace <:+ s.trace) (hafter : s'.trace <:+ s₁.trace) :
    Acknowledged s₀ s₁ a id := by
  obtain ⟨older, hsuffix, hold⟩ := h
  exact ⟨older, hsuffix.trans hafter, hbefore.trans hold⟩

theorem called_self (s : Root φ) : called ⟨s, s⟩ = false := by
  simp [called, eventsOf]

/-! ## One effect -/

/-- The errors that the handlers around the claim take. -/
def Raised.handled : Raised → Bool
  | .outboxUnavailable _ => true
  | .osError _ => true
  | _ => false

section Scripts

variable {α : Type} {Q : α → Root φ → Prop} {E : Raised → Root φ → Prop}

/-- What any execution under these faults ends with. -/
abbrev Ends (script : Script φ α) (s : Root φ) (Q : α → Root φ → Prop)
    (E : Raised → Root φ → Prop) : Prop :=
  script.wp faultyFiles (fun _ => True) Q E s

theorem ends_attempting {e : Effect φ} {cast : Answer e → Except Raised α}
    (h : ∀ c : FileFault, (∀ a, cast (files.respond e c.1 s).1 = .ok a →
        Q a (files.respond e c.1 s).2) ∧
      ∀ x, cast (files.respond e c.1 s).1 = .error x → E x (files.respond e c.1 s).2) :
    Ends (attempting e cast) s Q E :=
  fun c => ⟨trivial, (Prog.wp_ofExcept _).2 (h c)⟩

/-- A write of the outbox is done, or fails with the old file or the new one. -/
theorem ends_writeOutbox {outbox : Outbox} {Q : Unit → Root φ → Prop}
    (hQ : Q () (s.saveOutbox (outboxDocument outbox))) (hE : ∀ name, E (.osError name) s)
    (hE' : ∀ name, E (.osError name) (s.saveOutbox (outboxDocument outbox))) :
    Ends (writeOutbox outbox) s Q E := by
  refine ends_attempting fun c => ?_
  rcases hc : c.1.write with _ | ⟨replaced, x⟩
  · simp only [files, hc, WriteOutcome.answer, WriteOutcome.replaced, if_true, id]
    exact ⟨fun _ _ => hQ, fun x hx => by cases hx⟩
  · obtain ⟨name, rfl⟩ := c.2.write replaced x hc
    cases replaced with
    | true =>
        simp only [files, hc, WriteOutcome.answer, WriteOutcome.replaced, if_true, id]
        refine ⟨fun _ hok => (by cases hok), fun x hx => ?_⟩
        rw [← Except.error.inj hx]
        exact hE' name
    | false =>
        simp only [files, hc, WriteOutcome.answer, WriteOutcome.replaced, id]
        refine ⟨fun _ hok => (by cases hok), fun x hx => ?_⟩
        rw [← Except.error.inj hx]
        exact hE name

/-- A write of the sent keys leaves the history as it is. -/
theorem ends_saveSentKeys {sentKeys : List String} {Q : Unit → Root φ → Prop}
    (hQ : ∀ s', s'.trace = s.trace → Q () s') (hE : ∀ name s', E (.osError name) s') :
    Ends (saveSentKeys sentKeys) s Q E := by
  refine ends_attempting fun c => ?_
  have htrace : (files.respond (.writeSentKeys (sentKeysDocument sentKeys)) c.1 s).2.trace =
      s.trace := by
    simp only [files]
    split_ifs <;> rfl
  refine ⟨fun _ _ => hQ _ htrace, fun x hx => ?_⟩
  rcases hc : c.1.write with _ | ⟨replaced, y⟩
  · simp [files, hc, WriteOutcome.answer] at hx
  · obtain ⟨name, rfl⟩ := c.2.write replaced y hc
    simp only [files, hc, WriteOutcome.answer, id] at hx
    rw [← Except.error.inj hx]
    exact hE name _

/-- Looking for the chart raises nothing and changes nothing. -/
theorem ends_safeChartPath {item : Item φ} {Q : Option String × String → Root φ → Prop}
    (hQ : ∀ chart, Q chart s) : Ends (safeChartPath py item) s Q E := by
  unfold safeChartPath
  dsimp only
  split_ifs
  · exact hQ _
  · refine ends_attempting fun c => ⟨fun _ _ => hQ _, fun x hx => ?_⟩
    rcases hc : c.1.chart with y | chart
    · exact absurd hc (c.2.chart y)
    · simp [files, hc, Except.map] at hx

end Scripts

/-! ## One pair -/

/-- What the round of a pair ensures of its entry. -/
structure RoundFact (py : Python φ) (pair : Item φ × String) (span : Span (Root φ))
    (d : Delivery) : Prop where
  made : MadeFor py pair d
  sent : d.status = .sent → ∃ a id, pair = (a.item, a.recipientId) ∧ d.messageId = some id ∧
    Acknowledged span.before span.after a id
  tried : called span = true → d.status.unavailable = false

/-- The entry of a round ends with it, or an error that the handlers take. -/
abbrev Reports (py : Python φ) (script : Script φ (Delivery × Memory)) (pair : Item φ × String)
    (s₀ s : Root φ) : Prop :=
  Ends script s (fun r s' => RoundFact py pair ⟨s₀, s'⟩ r.1) (fun x _ => x.handled = true)

theorem RoundFact.quiet {pair : Item φ × String} (r : Report) (hsent : r.status ≠ .sent) :
    RoundFact py pair ⟨s, s⟩ (deliveryFromPreview py pair.1 pair.2 r) := by
  refine ⟨⟨r, rfl⟩, fun h => absurd h hsent, fun h => ?_⟩
  rw [called_self] at h
  cases h

theorem RoundFact.outcome {s₀ : Root φ} {o : Outcome}
    (hsent : o.status = .completed → ∃ id, o.messageId = some id ∧ Acknowledged s₀ s a id) :
    RoundFact py (a.item, a.recipientId) ⟨s₀, s⟩
      (deliveryFromPreview py a.item a.recipientId (outcomeReport py a o)) := by
  refine ⟨⟨_, rfl⟩, fun h => ?_, fun _ => ?_⟩
  · have hcompleted : o.status = .completed := by
      have hdelivered : o.status.delivered = .sent := h
      cases hs : o.status <;> simp [hs, OutboxStatus.delivered] at hdelivered
      rfl
    obtain ⟨id, hid, hack⟩ := hsent hcompleted
    exact ⟨a, id, rfl, hid, hack⟩
  · change o.status.delivered.unavailable = false
    cases o.status <;> rfl

theorem upsert_reports {s₀ : Root φ} {outbox : Outbox} {o : Outcome} {sentKeys : List String}
    (hsent : o.status = .completed → ∃ id, o.messageId = some id ∧ Acknowledged s₀ s a id) :
    Reports py ((upsertOutboxRecord outbox (outboxRecord py a o)).bind fun outbox' =>
      .ret (deliveryFromPreview py a.item a.recipientId (outcomeReport py a o),
        ⟨outbox', sentKeys⟩)) (a.item, a.recipientId) s₀ s := by
  refine Prog.wp_bind (Prog.wp_bind (ends_writeOutbox ?_ (fun _ => rfl) fun _ => rfl))
  refine RoundFact.outcome fun h => ?_
  obtain ⟨id, hid, hack⟩ := hsent h
  exact ⟨id, hid, hack.mono List.suffix_rfl (List.suffix_cons ..)⟩

theorem recordOutcome_reports {s₀ : Root φ} {m : Memory} {o : Outcome}
    (hsent : o.status = .completed → ∃ id, o.messageId = some id ∧ Acknowledged s₀ s a id) :
    Reports py (recordOutcome py a m o) (a.item, a.recipientId) s₀ s := by
  unfold recordOutcome
  split_ifs with hcompleted
  · refine Prog.wp_bind ((Prog.wp_perform _).2 fun c => ⟨trivial, ?_⟩)
    have htrace : s.trace <:+ (faultyFiles.respond (.writeSentKeys (sentKeysDocument
        (m.addSent (deliveryKey py a)).sentKeys)) c s).2.trace := respond_trace _ c s
    rcases hc : c.1.write with _ | ⟨replaced, x⟩
    · simp only [faultyFiles, files, hc, WriteOutcome.answer]
      refine upsert_reports fun h => ?_
      obtain ⟨id, hid, hack⟩ := hsent h
      refine ⟨id, hid, hack.mono List.suffix_rfl ?_⟩
      simpa [faultyFiles, files, hc] using htrace
    · obtain ⟨name, rfl⟩ := c.2.write replaced x hc
      simp only [faultyFiles, files, hc, WriteOutcome.answer]
      exact upsert_reports fun h => by cases h
  · exact upsert_reports hsent

/-- What came of a call, and whether it was acknowledged. -/
theorem raisedOutcome_ends {s₀ : Root φ} {x : Raised} (hx : x ≠ .interrupt) :
    Ends (raisedOutcome a x) s (fun o s' => o.status = .completed →
      ∃ id, o.messageId = some id ∧ Acknowledged s₀ s' a id) (fun x _ => x.handled = true) := by
  cases x with
  | outboxUnavailable problem => exact fun h => by cases h
  | notAttempted => exact fun h => by cases h
  | osError name => exact fun h => by cases h
  | exception name => exact fun h => by cases h
  | interrupt => exact absurd rfl hx

theorem attemptDelivery_reports {m : Memory} :
    Reports py (attemptDelivery py a m) (a.item, a.recipientId) s s := by
  set pending := outboxDocument (putRecord m.outbox (outboxRecord py a (pendingOutcome a)))
  refine Prog.wp_bind (Prog.wp_mono (fun o s' ho => recordOutcome_reports ho) (fun _ _ => id)
    (Prog.wp_catching ?_))
  refine Prog.wp_bind (ends_writeOutbox ?_ (fun name => raisedOutcome_ends (by simp))
    (fun name => raisedOutcome_ends (by simp)))
  refine Prog.wp_bind (Prog.wp_bind ((Prog.wp_perform _).2 fun c => ⟨trivial, ?_⟩))
  refine ends_attempting fun c => ⟨fun reply hreply => ?_, fun x hx => ?_⟩
  · cases reply with
    | none => exact fun h => by cases h
    | some id =>
        have hanswer : c.1.reply = .ok (some id) := hreply
        refine fun _ => ⟨id, rfl, (s.saveOutbox pending).trace, ?_, List.suffix_cons ..⟩
        simp only [faultyFiles, files, hanswer]
        exact List.suffix_rfl
  · refine raisedOutcome_ends ?_
    rintro rfl
    exact c.2.reply hx

theorem skipDuplicate_reports {m : Memory} {r : Report} (hr : r.status = .skippedDuplicate) :
    Reports py (skipDuplicate py a m r) (a.item, a.recipientId) s s := by
  refine Prog.wp_bind (ends_saveSentKeys (fun s' _ => ?_) fun _ _ => rfl)
  refine ⟨⟨r, rfl⟩, fun h => ?_, fun _ => ?_⟩
  · have hstatus : r.status = .sent := h
    rw [hr] at hstatus
    cases hstatus
  · change r.status.unavailable = false
    rw [hr]
    rfl

theorem sendCaptured_reports {m : Memory} :
    Reports py (sendCaptured py a m) (a.item, a.recipientId) s s := by
  unfold sendCaptured
  dsimp only
  split
  next => exact RoundFact.quiet _ (by simp [standingReport])
  next => exact RoundFact.quiet _ (by simp [standingReport])
  next => exact RoundFact.quiet _ (by simp [standingReport])
  next => exact skipDuplicate_reports rfl
  next =>
    split_ifs
    · exact skipDuplicate_reports rfl
    · exact attemptDelivery_reports

theorem sendItem_reports (photo : Bool) (m : Memory) (pair : Item φ × String) (s : Root φ) :
    Reports py (sendItem py photo m pair) pair s s := by
  have hrefuse : ∀ r : Report, r.status = .invalidPreview →
      Reports py (.ret (deliveryFromPreview py pair.1 pair.2 r, m)) pair s s :=
    fun r hr => RoundFact.quiet r (by simp [hr])
  refine Prog.wp_bind (ends_safeChartPath fun chart => ?_)
  rcases chart with ⟨_ | path, problem⟩
  · dsimp only
    split_ifs
    · exact hrefuse _ rfl
    · exact hrefuse _ rfl
    · exact sendCaptured_reports (a := ⟨pair.1, pair.2, none⟩)
  · dsimp only
    split_ifs
    · exact hrefuse _ rfl
    · exact hrefuse _ rfl
    · refine Prog.wp_bind ((Prog.wp_perform _).2 fun c => ⟨trivial, ?_⟩)
      rcases hc : c.1.payload with x | payload
      · obtain ⟨name, rfl⟩ := c.2.payload x hc
        simp only [faultyFiles, files, hc]
        exact hrefuse _ rfl
      · simp only [faultyFiles, files, hc]
        exact sendCaptured_reports (a := ⟨pair.1, pair.2, some (path, payload)⟩)

/-! ## All pairs -/

/-- What the handlers report of a pair. -/
def UnavailableFor (py : Python φ) (pair : Item φ × String) (d : Delivery) : Prop :=
  ∃ r, d = deliveryFromPreview py pair.1 pair.2 r ∧ r.status.unavailable = true

theorem UnavailableFor.status {pair : Item φ × String} {d : Delivery}
    (h : UnavailableFor py pair d) : d.status.unavailable = true := by
  obtain ⟨r, rfl, hr⟩ := h
  exact hr

theorem UnavailableFor.not_sent {pair : Item φ × String} {d : Delivery}
    (h : UnavailableFor py pair d) : d.status ≠ .sent := by
  intro hsent
  have hstatus := h.status
  rw [hsent] at hstatus
  cases hstatus

theorem UnavailableFor.made {pair : Item φ × String} {d : Delivery}
    (h : UnavailableFor py pair d) : MadeFor py pair d := by
  obtain ⟨r, hr, -⟩ := h
  exact ⟨r, hr⟩

theorem unavailableDeliveries_ends {problem : String} {status : DeliveryStatus}
    {pairs : List (Item φ × String)} (hstatus : status.unavailable = true) :
    Ends (unavailableDeliveries py problem status pairs) s
      (fun ds _ => List.Forall₂ (UnavailableFor py) pairs ds) (fun _ _ => False) := by
  refine Prog.wp_forEach_done (Q := fun done ds _ => List.Forall₂ (UnavailableFor py) done ds)
    (fun done pair ds s' hds => ?_) [] .nil
  refine Prog.wp_bind (Prog.wp_bind (ends_safeChartPath fun chart =>
    Prog.wp_bind (ends_safeChartPath fun chart' => ?_)))
  exact List.rel_append hds (.cons ⟨_, rfl, hstatus⟩ .nil)

/-- The same behind a list of sent keys. -/
theorem unavailableDeliveries_paired {problem : String} {sentKeys : List String}
    {pairs : List (Item φ × String)} :
    Ends ((unavailableDeliveries py problem .outboxUnavailable pairs).bind fun ds =>
      .ret (ds, sentKeys)) s (fun r _ => List.Forall₂ (UnavailableFor py) pairs r.1)
      (fun _ _ => False) :=
  Prog.wp_bind (Prog.wp_mono (fun _ _ hds => hds) (fun _ _ => id) (unavailableDeliveries_ends rfl))

/-- What sending a list of items ensures of its entries. -/
structure ItemsFact (py : Python φ) (pairs : List (Item φ × String))
    (spans : List (Span (Root φ))) (s s' : Root φ) (ds : List Delivery) : Prop where
  pairs : List.Forall₂ (MadeFor py) pairs ds
  sent : ∀ d ∈ ds, d.status = .sent → ∃ a id, MadeFor py (a.item, a.recipientId) d ∧
    d.messageId = some id ∧ Acknowledged s s' a id
  tried : ∀ (n : ℕ) span d, spans[n]? = some span → ds[n]? = some d → called span = true →
    d.status.unavailable = false

theorem readOutbox_handled :
    Ends readOutbox s (fun _ _ => True) (fun x _ => x.handled = true) := by
  refine ends_attempting fun c => ⟨fun _ _ => trivial, fun x hx => ?_⟩
  rcases hc : c.1.readFault with _ | y
  · simp [files, hc, Except.map] at hx
  · obtain ⟨name, rfl⟩ := c.2.read y hc
    simp only [files, hc, Option.map_some, Option.getD_some, Except.map] at hx
    rw [← Except.error.inj hx]
    rfl

theorem readSentKeys_handled :
    Ends readSentKeys s (fun _ _ => True) (fun x _ => x.handled = true) := by
  refine ends_attempting fun c => ⟨fun _ _ => trivial, fun x hx => ?_⟩
  rcases hc : c.1.readFault with _ | y
  · simp only [files, hc, Option.map_none, Option.getD_none, Except.bind] at hx
    cases hload : loadSentKeys s.sentKeys with
    | ok sentKeys => simp [hload, orUnavailable] at hx
    | error problem =>
        rw [hload] at hx
        rw [← Except.error.inj hx]
        rfl
  · obtain ⟨name, rfl⟩ := c.2.read y hc
    simp only [files, hc, Option.map_some, Option.getD_some, Except.bind] at hx
    rw [← Except.error.inj hx]
    rfl

section Items

variable {photo : Bool} {items : List (Item φ)} {recipientIds sentKeys : List String}
  {cs : Stream' FileFault}

theorem sendItems_handled :
    Ends (sendItems py photo items recipientIds sentKeys) s (fun _ _ => True)
      (fun x _ => x.handled = true) := by
  refine Prog.wp_bind (Prog.wp_mono (fun loaded s' _ => ?_) (fun _ _ => id) readOutbox_handled)
  cases loaded with
  | error problem =>
      exact Prog.wp_bind (Prog.wp_mono (fun _ _ _ => trivial) (fun _ _ h => h.elim)
        (unavailableDeliveries_ends rfl))
  | ok outbox =>
      refine Prog.wp_bind (Prog.wp_mono (fun _ _ _ => trivial) (fun _ _ => id)
        (Prog.wp_forEach (Q := fun _ _ => True) (fun acc s'' pair _ _ => ?_) trivial))
      exact Prog.wp_bind (Prog.wp_mono (fun _ _ _ => trivial) (fun _ _ => id)
        (sendItem_reports photo acc.2 pair s''))

theorem sendItems_fact {r : List Delivery × List String}
    (h : ((sendItems py photo items recipientIds sentKeys).exec faultyFiles cs s).result = .ok r) :
    ItemsFact py (jobsOf items recipientIds)
      (itemSpans py photo items recipientIds sentKeys cs s) s
      ((sendItems py photo items recipientIds sentKeys).exec faultyFiles cs s).state r.1 := by
  have hgrows := exec_trace (readOutbox (φ := φ)) cs s
  unfold sendItems at h ⊢
  cases hread : ((readOutbox (φ := φ)).exec faultyFiles cs s).result with
  | error x =>
      rw [Prog.exec_bind_error _ hread] at h
      cases h
  | ok loaded =>
      rw [Prog.exec_bind_ok _ hread] at h ⊢
      set cs' := ((readOutbox (φ := φ)).exec faultyFiles cs s).rest
      set s' := ((readOutbox (φ := φ)).exec faultyFiles cs s).state
      cases loaded with
      | error problem =>
          have hds : List.Forall₂ (UnavailableFor py) (jobsOf items recipientIds) r.1 :=
            (Prog.wp_exec unavailableDeliveries_paired cs').1 r h
          refine ⟨hds.imp fun _ _ hd => hd.made, fun d hd hsent => ?_, fun n span d hspan => ?_⟩
          · obtain ⟨pair, -, hpair⟩ := exists_related_right hds hd
            exact absurd hsent hpair.not_sent
          · simp [itemSpans, hread] at hspan
      | ok outbox =>
          have hspans : itemSpans py photo items recipientIds sentKeys cs s =
              Prog.spans faultyFiles (Prog.collecting (sendItem py photo))
                ([], ⟨outbox, sentKeys⟩) (jobsOf items recipientIds) cs' s' := by
            simp only [itemSpans, hread, cs', s']
          rw [hspans]
          dsimp only at h ⊢
          cases hloop : ((Prog.forEach (Prog.collecting (sendItem py photo))
              (([] : List Delivery), (⟨outbox, sentKeys⟩ : Memory))
              (jobsOf items recipientIds)).exec faultyFiles cs' s').result with
          | error x =>
              rw [Prog.exec_bind_error _ hloop] at h
              cases h
          | ok acc =>
              rw [Prog.exec_bind_ok _ hloop] at h ⊢
              obtain rfl : (acc.1, acc.2.sentKeys) = r := Except.ok.inj h
              obtain ⟨new, hnew, hcollected⟩ := Prog.exec_collecting
                (fun m pair s => sendItem_reports photo m pair s) _ _ _ _ _ hloop
              rw [List.nil_append] at hnew
              dsimp only
              rw [hnew]
              refine ⟨hcollected.forall₂ fun _ _ _ hfact => hfact.made, fun d hd hsent => ?_,
                fun n span d hspan hd => ?_⟩
              · obtain ⟨n, hn⟩ := List.mem_iff_getElem?.1 hd
                obtain ⟨pair, span, -, hspan, hfact⟩ := hcollected.fact n d hn
                obtain ⟨a, id, hpair, hid, hack⟩ := hfact.sent hsent
                have hbetween := Prog.spans_rel (R := fun s s' : Root φ => s.trace <:+ s'.trace)
                  (fun _ => List.suffix_rfl) (fun h h' => List.IsSuffix.trans h h') respond_trace
                  (List.mem_of_getElem? hspan)
                exact ⟨a, id, hpair ▸ hfact.made, hid,
                  hack.mono (hgrows.trans hbetween.1) hbetween.2⟩
              · obtain ⟨pair, span', -, hspan', hfact⟩ := hcollected.fact n d hd
                obtain rfl : span' = span := Option.some.inj (hspan'.symm.trans hspan)
                exact hfact.tried

end Items

/-! ## Runs -/

section Runs

variable {run : Run φ} {claim : Claim} {cs : Stream' FileFault}

/-- An entry that is not reported as sent, or was acknowledged. -/
abbrev SentOnly (py : Python φ) (s s' : Root φ) (ds : List Delivery) : Prop :=
  ∀ d ∈ ds, d.status = .sent → ∃ a id, MadeFor py (a.item, a.recipientId) d ∧
    d.messageId = some id ∧ Acknowledged s s' a id

theorem SentOnly.mono {s₀ s₁ : Root φ} {ds : List Delivery} (h : SentOnly py s s' ds)
    (hbefore : s₀.trace <:+ s.trace) (hafter : s'.trace <:+ s₁.trace) :
    SentOnly py s₀ s₁ ds := by
  intro d hd hsent
  obtain ⟨a, id, hmade, hid, hack⟩ := h d hd hsent
  exact ⟨a, id, hmade, hid, hack.mono hbefore hafter⟩

theorem sentOnly_of_unavailable {pairs : List (Item φ × String)} {ds : List Delivery}
    (h : List.Forall₂ (UnavailableFor py) pairs ds) : SentOnly py s s' ds := by
  intro d hd hsent
  obtain ⟨pair, -, hpair⟩ := exists_related_right h hd
  exact absurd hsent hpair.not_sent

theorem sentOnly_refused : SentOnly py s s' (run.refused py) := by
  intro d hd hsent
  obtain ⟨item, -, hproblem⟩ := List.mem_filterMap.1 hd
  obtain ⟨problem, -, rfl⟩ := Option.map_eq_some_iff.1 hproblem
  cases hsent

theorem jobs_of_nobody (hnone : run.addressed py = []) : run.jobs py = [] := by
  simp [Run.jobs, jobsOf, hnone]

theorem sendCards_handled :
    Ends (run.sendCards py) s (fun _ _ => True) (fun x _ => x.handled = true) :=
  Prog.wp_bind (Prog.wp_mono (fun _ _ _ => sendItems_handled) (fun _ _ => id)
    readSentKeys_handled)

theorem sendDigest_handled {first : List Delivery × List String} :
    Ends (run.sendDigest py first) s (fun _ _ => True) (fun x _ => x.handled = true) := by
  unfold Run.sendDigest
  dsimp only
  split_ifs
  · exact Prog.wp_bind (Prog.wp_mono (fun _ _ _ => trivial) (fun _ _ => id) sendItems_handled)
  · trivial

theorem sendCards_fact {first : List Delivery × List String}
    (h : ((run.sendCards py).exec faultyFiles cs s).result = .ok first) :
    ItemsFact py (run.jobs py) (run.cardSpans py .taken cs s) s
      ((run.sendCards py).exec faultyFiles cs s).state first.1 := by
  have hgrows := exec_trace (readSentKeys (φ := φ)) cs s
  unfold Run.sendCards at h ⊢
  cases hread : ((readSentKeys (φ := φ)).exec faultyFiles cs s).result with
  | error x =>
      rw [Prog.exec_bind_error _ hread] at h
      cases h
  | ok sentKeys =>
      rw [Prog.exec_bind_ok _ hread] at h ⊢
      have hfact := sendItems_fact h
      refine ⟨hfact.pairs, SentOnly.mono hfact.sent hgrows List.suffix_rfl, ?_⟩
      simpa only [Run.cardSpans, hread] using hfact.tried

theorem sendDigest_sent {first : List Delivery × List String} {ds : List Delivery}
    (h : ((run.sendDigest py first).exec faultyFiles cs s).result = .ok ds) :
    SentOnly py s ((run.sendDigest py first).exec faultyFiles cs s).state ds := by
  unfold Run.sendDigest at h ⊢
  dsimp only at h ⊢
  split_ifs at h ⊢
  · cases hsend : ((sendItems py run.sendPhoto [run.digest (run.statusDigestReason py first.1)]
        (run.addressed py) first.2).exec faultyFiles cs s).result with
    | error x =>
        rw [Prog.exec_bind_error _ hsend] at h
        cases h
    | ok second =>
        rw [Prog.exec_bind_ok _ hsend] at h ⊢
        obtain rfl : second.1 = ds := Except.ok.inj h
        exact (sendItems_fact hsend).sent
  · obtain rfl : [] = ds := Except.ok.inj h
    exact fun d hd => absurd hd List.not_mem_nil

theorem unavailableDeliveries_returns (py : Python φ) (problem : String) (status : DeliveryStatus)
    (pairs : List (Item φ × String)) (hstatus : status.unavailable = true)
    (cs : Stream' FileFault) (s : Root φ) : ∃ ds, List.Forall₂ (UnavailableFor py) pairs ds ∧
      ((unavailableDeliveries py problem status pairs).exec faultyFiles cs s).result = .ok ds := by
  have hends := Prog.wp_exec (@unavailableDeliveries_ends _ py s problem status pairs hstatus) cs
  cases hresult : ((unavailableDeliveries py problem status pairs).exec faultyFiles cs s).result with
  | error x => exact absurd hresult fun h => (hends.2 x h).elim
  | ok ds => exact ⟨ds, hends.1 ds hresult, rfl⟩

theorem reportUnavailable_returns (sofar : Run.Deliveries) {x : Raised} (hx : x.handled = true)
    (cs : Stream' FileFault) (s : Root φ) :
    ∃ ds, List.Forall₂ (UnavailableFor py) (run.jobs py) ds ∧
      ((run.reportUnavailable py sofar x).exec faultyFiles cs s).result =
        .ok { sofar with unavailable := ds } := by
  cases x with
  | outboxUnavailable problem =>
      obtain ⟨ds, hds, hresult⟩ := unavailableDeliveries_returns py problem .outboxUnavailable
        (run.jobs py) rfl cs s
      exact ⟨ds, hds, by rw [Run.reportUnavailable, Prog.exec_bind_ok _ hresult]; rfl⟩
  | osError name =>
      obtain ⟨ds, hds, hresult⟩ := unavailableDeliveries_returns py "delivery_claim_unavailable"
        .pendingDeliveryClaim (run.jobs py) rfl cs s
      exact ⟨ds, hds, by rw [Run.reportUnavailable, Prog.exec_bind_ok _ hresult]; rfl⟩
  | notAttempted => cases hx
  | exception name => cases hx
  | interrupt => cases hx

theorem unaddressed_returns (py : Python φ) (run : Run φ) (cs : Stream' FileFault) (s : Root φ) :
    ∃ ds, (∀ d ∈ ds, d.status ≠ .sent) ∧
      ((run.unaddressed py).exec faultyFiles cs s).result = .ok ds := by
  have hends : Ends (run.unaddressed py) s (fun ds _ => ∀ d ∈ ds, d.status ≠ .sent)
      (fun _ _ => False) := by
    unfold Run.unaddressed
    split_ifs
    · refine Prog.wp_forEach (Q := fun (ds : List Delivery) _ => ∀ d ∈ ds, d.status ≠ .sent)
        (fun ds s' item _ hds => ?_) (fun d hd => absurd hd List.not_mem_nil)
      refine Prog.wp_bind (Prog.wp_bind (ends_safeChartPath fun chart =>
        Prog.wp_bind (ends_safeChartPath fun chart' => ?_)))
      intro d hd
      rcases List.mem_append.1 hd with hd | hd
      · exact hds d hd
      · rw [List.mem_singleton.1 hd]
        exact fun h => by cases h
    · intro d hd
      obtain ⟨item, -, rfl⟩ := List.mem_map.1 hd
      exact fun h => by cases h
  have hexec := Prog.wp_exec hends cs
  cases hresult : ((run.unaddressed py).exec faultyFiles cs s).result with
  | error x => exact absurd hresult fun h => (hexec.2 x h).elim
  | ok ds => exact ⟨ds, hexec.1 ds hresult, rfl⟩

/-- The report of a run that sends to nobody. -/
theorem reportsTruth_of_nobody (hnone : run.addressed py = []) :
    run.ReportsTruth py claim cs s := by
  have hscript : run.deliveries py claim = (run.unaddressed py).bind fun ds =>
      .ret { refused := run.refused py, unaddressed := ds } := by
    cases claim <;> simp [Run.deliveries, Run.sendPaperTelegramPreviews, hnone]
  obtain ⟨ds, hds, hresult⟩ := unaddressed_returns py run cs s
  refine ⟨{ refused := run.refused py, unaddressed := ds }, ?_, ?_, ?_, ?_⟩
  · rw [hscript, Prog.exec_bind_ok _ hresult]
    rfl
  · rw [jobs_of_nobody hnone]
    exact .nil
  · intro entry hentry hsent
    simp only [Run.Deliveries.all, List.append_nil, List.mem_append] at hentry
    rcases hentry with hentry | hentry
    · exact sentOnly_refused entry hentry hsent
    · exact absurd hsent (hds entry hentry)
  · intro n span entry _ hentry
    simp at hentry

/-- A report in which every pair is unavailable is true of a run that called the transport for
none of them. -/
theorem truthful_unavailable {ds : List Delivery}
    (hds : List.Forall₂ (UnavailableFor py) (run.jobs py) ds)
    (hquiet : ∀ span ∈ run.cardSpans py claim cs s, called span = false) :
    run.Truthful py claim cs s s' { refused := run.refused py, unavailable := ds } := by
  refine ⟨hds.imp fun _ _ hd => hd.made, fun entry hentry hsent => ?_,
    fun n span entry hspan _ hcalled => ?_⟩
  · simp only [Run.Deliveries.all, List.append_nil, List.mem_append] at hentry
    rcases hentry with hentry | hentry
    · exact sentOnly_refused entry hentry hsent
    · exact sentOnly_of_unavailable hds entry hentry hsent
  · rw [hquiet span (List.mem_of_getElem? hspan)] at hcalled
    cases hcalled

/-- Without the claim nothing is sent. -/
theorem reportsTruth_without_claim (hclaim : claim ≠ .taken) : run.ReportsTruth py claim cs s := by
  by_cases hnone : run.addressed py = []
  · exact reportsTruth_of_nobody hnone
  have hscript : run.deliveries py claim =
      (unavailableDeliveries py claim.problem .pendingDeliveryClaim (run.jobs py)).bind
        fun ds => .ret { refused := run.refused py, unavailable := ds } := by
    cases claim with
    | taken => exact absurd rfl hclaim
    | held => simp [Run.deliveries, hnone]
    | failed => simp [Run.deliveries, hnone]
  obtain ⟨ds, hds, hresult⟩ := unavailableDeliveries_returns py claim.problem
    .pendingDeliveryClaim (run.jobs py) rfl cs s
  refine ⟨_, by rw [hscript, Prog.exec_bind_ok _ hresult]; rfl, truthful_unavailable hds ?_⟩
  cases claim with
  | taken => exact absurd rfl hclaim
  | held => simp [Run.cardSpans]
  | failed => simp [Run.cardSpans]

/-- The two phases of a run with the claim. -/
theorem deliveries_of_somebody (hsome : run.addressed py ≠ []) :
    run.deliveries py .taken = (run.sendCards py).tryElse
      (fun first => (run.sendDigest py first).tryElse
        (fun ds => .ret { refused := run.refused py, cards := first.1, digest := ds })
        (run.reportUnavailable py { refused := run.refused py, cards := first.1 }))
      (run.reportUnavailable py { refused := run.refused py }) := by
  simp [Run.deliveries, Run.sendPaperTelegramPreviews, hsome]

/-- After an error in the sending of the cards every pair is reported as unavailable. -/
theorem result_of_cards_error {x : Raised} (hsome : run.addressed py ≠ [])
    (hcards : ((run.sendCards py).exec faultyFiles cs s).result = .error x) :
    ∃ ds, List.Forall₂ (UnavailableFor py) (run.jobs py) ds ∧
      ((run.deliveries py .taken).exec faultyFiles cs s).result =
        .ok { refused := run.refused py, unavailable := ds } := by
  have hx := (Prog.wp_exec sendCards_handled cs).2 x hcards
  rw [deliveries_of_somebody hsome, Prog.exec_tryElse_error _ _ hcards]
  exact reportUnavailable_returns _ hx _ _

/-- After an error in the digest the entries of the cards stay beside them. -/
theorem result_of_digest_error {first : List Delivery × List String} {x : Raised}
    (hsome : run.addressed py ≠ [])
    (hcards : ((run.sendCards py).exec faultyFiles cs s).result = .ok first)
    (hdigest : ((run.sendDigest py first).exec faultyFiles
      ((run.sendCards py).exec faultyFiles cs s).rest
      ((run.sendCards py).exec faultyFiles cs s).state).result = .error x) :
    ∃ ds, List.Forall₂ (UnavailableFor py) (run.jobs py) ds ∧
      ((run.deliveries py .taken).exec faultyFiles cs s).result =
        .ok { refused := run.refused py, cards := first.1, unavailable := ds } := by
  have hx := (Prog.wp_exec sendDigest_handled _).2 x hdigest
  rw [deliveries_of_somebody hsome, Prog.exec_tryElse_ok _ _ hcards,
    Prog.exec_tryElse_error _ _ hdigest]
  exact reportUnavailable_returns _ hx _ _

/-! ## When a report tells the truth -/

theorem itemSpans_length_le {photo : Bool} {items : List (Item φ)}
    {recipientIds sentKeys : List String} :
    (itemSpans py photo items recipientIds sentKeys cs s).length ≤
      (jobsOf items recipientIds).length := by
  unfold itemSpans
  dsimp only
  split
  · exact Prog.length_spans_le ..
  · simp

theorem cardSpans_length_le : (run.cardSpans py claim cs s).length ≤ (run.jobs py).length := by
  unfold Run.cardSpans
  dsimp only
  split
  · exact itemSpans_length_le
  · simp

theorem not_reportsTruth_of_cardsFail (h : run.CardsFailAfterCall py cs s) :
    ¬ run.ReportsTruth py .taken cs s := by
  obtain ⟨⟨x, hcards⟩, span, hspan, hcalled⟩ := h
  obtain ⟨n, hn⟩ := List.mem_iff_getElem?.1 hspan
  have hlt : n < (run.jobs py).length :=
    (List.getElem?_eq_some_iff.1 hn).1.trans_le cardSpans_length_le
  have hsome : run.addressed py ≠ [] := by
    intro hnone
    simp [jobs_of_nobody hnone] at hlt
  obtain ⟨ds, hds, hresult⟩ := result_of_cards_error hsome hcards
  rintro ⟨d, hd, htrue⟩
  obtain rfl := Except.ok.inj (hresult.symm.trans hd)
  obtain ⟨entry, hentry⟩ : ∃ entry, ds[n]? = some entry :=
    ⟨_, List.getElem?_eq_getElem (hds.length_eq ▸ hlt)⟩
  have hstatus := htrue.tried n span entry hn (by simpa using hentry) hcalled
  obtain ⟨pair, -, hpair⟩ := exists_related_right hds (List.mem_of_getElem? hentry)
  rw [hpair.status] at hstatus
  cases hstatus

theorem not_reportsTruth_of_digestFails (h : run.DigestFails py cs s) :
    ¬ run.ReportsTruth py .taken cs s := by
  obtain ⟨hjobs, first, x, hcards, hdigest⟩ := h
  have hsome : run.addressed py ≠ [] := fun hnone => hjobs (jobs_of_nobody hnone)
  obtain ⟨ds, hds, hresult⟩ := result_of_digest_error hsome hcards hdigest
  rintro ⟨d, hd, htrue⟩
  obtain rfl := Except.ok.inj (hresult.symm.trans hd)
  -- each pair has one entry from the cards and one from the handler
  have hcount := htrue.pairs.length_eq
  have hfirst := (sendCards_fact hcards).pairs.length_eq
  have hun := hds.length_eq
  have hpos := List.length_pos_iff.2 hjobs
  simp only [List.length_append] at hcount
  omega

theorem reportsTruth_of_no_failure (hcards : ¬ run.CardsFailAfterCall py cs s)
    (hdigest : ¬ run.DigestFails py cs s) : run.ReportsTruth py .taken cs s := by
  by_cases hnone : run.addressed py = []
  · exact reportsTruth_of_nobody hnone
  cases hfirst : ((run.sendCards py).exec faultyFiles cs s).result with
  | error x =>
      obtain ⟨ds, hds, hresult⟩ := result_of_cards_error hnone hfirst
      refine ⟨_, hresult, truthful_unavailable hds fun span hspan => ?_⟩
      by_contra hcalled
      exact hcards ⟨⟨x, hfirst⟩, span, hspan, by simpa using hcalled⟩
  | ok first =>
      have hfact := sendCards_fact hfirst
      cases hsecond : ((run.sendDigest py first).exec faultyFiles
          ((run.sendCards py).exec faultyFiles cs s).rest
          ((run.sendCards py).exec faultyFiles cs s).state).result with
      | error x =>
          have hjobs : run.jobs py = [] := by
            by_contra hjobs
            exact hdigest ⟨hjobs, first, x, hfirst, hsecond⟩
          obtain ⟨ds, hds, hresult⟩ := result_of_digest_error hnone hfirst hsecond
          have hpairs := hfact.pairs
          rw [hjobs, List.forall₂_nil_left_iff] at hpairs
          rw [hpairs] at hresult
          refine ⟨_, hresult, truthful_unavailable hds fun span hspan => ?_⟩
          have hlength : (run.cardSpans py .taken cs s).length ≤ (run.jobs py).length :=
            cardSpans_length_le
          rw [hjobs] at hlength
          simp [List.length_eq_zero_iff.1 (Nat.le_zero.1 hlength)] at hspan
      | ok ds =>
          have hexec : ((run.deliveries py .taken).exec faultyFiles cs s) =
              ⟨.ok { refused := run.refused py, cards := first.1, digest := ds },
                ((run.sendDigest py first).exec faultyFiles
                  ((run.sendCards py).exec faultyFiles cs s).rest
                  ((run.sendCards py).exec faultyFiles cs s).state).state,
                ((run.sendDigest py first).exec faultyFiles
                  ((run.sendCards py).exec faultyFiles cs s).rest
                  ((run.sendCards py).exec faultyFiles cs s).state).rest⟩ := by
            rw [deliveries_of_somebody hnone, Prog.exec_tryElse_ok _ _ hfirst,
              Prog.exec_tryElse_ok _ _ hsecond]
            rfl
          have hgrows := exec_trace (run.sendCards py) cs s
          have hgrows' := exec_trace (run.sendDigest py first)
            ((run.sendCards py).exec faultyFiles cs s).rest
            ((run.sendCards py).exec faultyFiles cs s).state
          refine ⟨_, congrArg Ending.result hexec, ?_, fun entry hentry hsent => ?_,
            fun n span entry hspan hentry => ?_⟩
          · simpa using hfact.pairs
          · rw [congrArg Ending.state hexec]
            simp only [Run.Deliveries.all, List.append_nil, List.mem_append] at hentry
            rcases hentry with (hentry | hentry) | hentry
            · exact sentOnly_refused entry hentry hsent
            · exact SentOnly.mono hfact.sent List.suffix_rfl hgrows' entry hentry hsent
            · exact SentOnly.mono (sendDigest_sent hsecond) hgrows List.suffix_rfl entry hentry hsent
          · exact hfact.tried n span entry hspan (by simpa using hentry)

/-- The report of a run tells the truth exactly when the run does not hold the claim, or no error
leaves the sending of the cards after the transport was called, and none leaves the status digest
while there are pairs. -/
theorem reportsTruth_iff (py : Python φ) (run : Run φ) (claim : Claim) (cs : Stream' FileFault)
    (s : Root φ) : run.ReportsTruth py claim cs s ↔
      (claim = .taken → ¬ run.CardsFailAfterCall py cs s ∧ ¬ run.DigestFails py cs s) := by
  constructor
  · rintro htrue rfl
    exact ⟨fun h => not_reportsTruth_of_cardsFail h htrue,
      fun h => not_reportsTruth_of_digestFails h htrue⟩
  · intro h
    cases claim with
    | taken => exact reportsTruth_of_no_failure (h rfl).1 (h rfl).2
    | held => exact reportsTruth_without_claim (by simp)
    | failed => exact reportsTruth_without_claim (by simp)

end Runs

/-! ## A full disk -/

/-- One recipient, and a transport that acknowledges its card. -/
def sampleFault (write : WriteOutcome)
    (h : ∀ replaced x, write = .failed replaced x → ∃ name, x = .osError name) : FileFault :=
  ⟨⟨.ok (.inr .missing), .ok [], none, write, .ok (some 1)⟩,
    ⟨by simp, by simp, by simp, h, by simp⟩⟩

/-- The record of the sent card is the first write that fails. -/
def fullDisk : Stream' FileFault := fun n =>
  if n = 6 then sampleFault (.failed false (.osError "OSError")) (by simp)
  else sampleFault .done (by simp)

theorem full_disk_denies_sent_card :
    ¬ sampleRun.ReportsTruth plainPython .taken fullDisk (Root.found .missing .missing) := by
  refine not_reportsTruth_of_cardsFail ⟨⟨.osError "OSError", ?_⟩, ?_⟩
  · decide +kernel
  · have hcalled : (sampleRun.cardSpans plainPython .taken fullDisk
        (Root.found .missing .missing)).any called = true := by decide +kernel
    exact List.any_eq_true.1 hcalled

end ResearchLab.Telegram
