import ResearchLab.Telegram.Sender
import Mathlib

/-!
# At most one delivery

The outbox of the file decides. A call that may have delivered its card leaves a record under its
primary key, that record is never replaced, and no delivery with the record under one of its keys
reaches the transport.
-/
namespace ResearchLab.Telegram
open Foundation

variable {φ : Type} (py : Python φ)

/-- The status that a list of records gives to a key. -/
def statusIn (items : List OutboxItem) (key : String) : Option OutboxStatus :=
  (items.find? fun r => r.deliveryKey = key).bind OutboxItem.standing

/-- The records of the outbox file. -/
def Root.items (s : Root φ) : List OutboxItem := OutboxDocument.itemsOf s.outbox

/-- The outbox after a history, the latest event first. -/
def latestOutbox : List (Event φ) → List OutboxItem
  | [] => []
  | .outbox items :: _ => items
  | .request _ :: trace => latestOutbox trace
  | .answer _ :: trace => latestOutbox trace

/-- The transport said that nothing was sent. -/
def NotSent (r : Except Raised (Option ℤ)) : Prop := r = .ok none ∨ r = .error .notAttempted

/-- The request that follows `before` was answered with nothing sent. -/
def Refused (trace : List (Event φ)) (a : Attempt φ) (before : List (Event φ)) : Prop :=
  ∃ r, NotSent r ∧ (.answer r :: .request a :: before) <:+ trace

/-- Statuses that no later run replaces. -/
def OutboxStatus.final : OutboxStatus → Bool
  | .operatorSuppressedNoReplay => true
  | .externalAckAmbiguous => true
  | _ => false

/-- Statuses under which nothing is sent. -/
def OutboxStatus.blocks : OutboxStatus → Bool
  | .error => false
  | .skippedNoToken => false
  | _ => true

/-- When a call may follow a history. -/
structure Allowed (a : Attempt φ) (older : List (Event φ)) : Prop where
  /-- Every earlier call for the pair ended with nothing sent. -/
  refused : ∀ a' before, (.request a' :: before) <:+ older → SamePair a' a →
    Refused older a' before
  /-- The call follows its own record, and before that no record of its keys was pending. -/
  pending : ∃ items before, older = .outbox items :: before ∧
    ∀ key ∈ deliveryKeys py a, statusIn (latestOutbox before) key ≠ some .pending
  /-- No record of its keys was ever suppressed or ambiguous. -/
  final : ∀ items, .outbox items ∈ older → ∀ key ∈ deliveryKeys py a, ∀ status,
    statusIn items key = some status → status.final = false

/-- Every call of a history was allowed when it was made. -/
def Proper (trace : List (Event φ)) : Prop :=
  ∀ a older, (.request a :: older) <:+ trace → Allowed py a older

/-- Every call under a primary key ended with nothing sent. -/
def Free (key : String) (trace : List (Event φ)) : Prop :=
  ∀ a before, (.request a :: before) <:+ trace → deliveryKey py a = key → Refused trace a before

/-- What every crash leaves behind. -/
structure Inv (s : Root φ) : Prop where
  proper : Proper py s.trace
  recorded : ∀ key, Free py key s.trace ∨ ∃ status, statusIn s.items key = some status ∧
    status.blocks = true
  latest : latestOutbox s.trace = s.items
  kept : ∀ items, .outbox items ∈ s.trace → ∀ key status, statusIn items key = some status →
    status.final = true → statusIn s.items key = some status

/-! ## Histories -/

variable {py} {a : Attempt φ} {trace : List (Event φ)} {s : Root φ} {key : String}

theorem Refused.cons {before : List (Event φ)} (h : Refused trace a before) (e : Event φ) :
    Refused (e :: trace) a before := by
  obtain ⟨r, hr, hsuffix⟩ := h
  exact ⟨r, hr, hsuffix.trans (List.suffix_cons ..)⟩

theorem request_suffix_cons {e : Event φ} {before : List (Event φ)}
    (h : (.request a :: before) <:+ e :: trace) :
    (e = .request a ∧ before = trace) ∨ (.request a :: before) <:+ trace := by
  rcases List.suffix_cons_iff.1 h with heq | hsuffix
  · obtain ⟨rfl, rfl⟩ := List.cons.inj heq
    exact .inl ⟨rfl, rfl⟩
  · exact .inr hsuffix

theorem Free.cons {e : Event φ} (h : Free py key trace)
    (he : ∀ a, e = .request a → deliveryKey py a ≠ key) : Free py key (e :: trace) := by
  intro a before hsuffix hkey
  rcases request_suffix_cons hsuffix with ⟨rfl, -⟩ | hsuffix
  · exact absurd hkey (he a rfl)
  · exact (h a before hsuffix hkey).cons e

/-- An answer that nothing was sent frees the key again. -/
theorem Free.refused {r : Except Raised (Option ℤ)} (h : Free py key trace) (hr : NotSent r) :
    Free py key (.answer r :: .request a :: trace) := by
  intro a' before hsuffix hkey
  rcases request_suffix_cons hsuffix with ⟨he, -⟩ | hsuffix
  · cases he
  rcases request_suffix_cons hsuffix with ⟨he, rfl⟩ | hsuffix
  · cases he
    exact ⟨r, hr, List.suffix_rfl⟩
  · exact ((h a' before hsuffix hkey).cons _).cons _

theorem Proper.cons {e : Event φ} (h : Proper py trace)
    (he : ∀ a, e = .request a → Allowed py a trace) : Proper py (e :: trace) := by
  intro a older hsuffix
  rcases request_suffix_cons hsuffix with ⟨rfl, rfl⟩ | hsuffix
  · exact he a rfl
  · exact h a older hsuffix

/-! ## What each effect keeps -/

@[simp] theorem saveOutbox_items (s : Root φ) (d : OutboxDocument) :
    (s.saveOutbox d).items = d.items := rfl

@[simp] theorem saveOutbox_trace (s : Root φ) (d : OutboxDocument) :
    (s.saveOutbox d).trace = .outbox d.items :: s.trace := rfl

theorem Inv.found (outbox : Stored OutboxDocument) (sentKeys : Stored SentKeysDocument) :
    Inv py (Root.found outbox sentKeys : Root φ) := by
  have hnone : ∀ (a : Attempt φ) before,
      ¬ (.request a :: before) <:+ [Event.outbox (OutboxDocument.itemsOf outbox)] := by
    intro a before hsuffix
    rcases request_suffix_cons hsuffix with ⟨he, -⟩ | hsuffix
    · cases he
    · simp at hsuffix
  refine ⟨fun a older h => absurd h (hnone a older), fun key => .inl ?_, rfl, ?_⟩
  · exact fun a before h => absurd h (hnone a before)
  · intro items hitems key status hstatus _
    obtain rfl : items = OutboxDocument.itemsOf outbox := by simpa [Root.found] using hitems
    exact hstatus

/-- A new outbox that changes one key, and this one neither away from a final status nor from a
blocking one while a card may have been sent under it. -/
theorem Inv.save {d : OutboxDocument} (h : Inv py s)
    (hother : ∀ k, k ≠ key → statusIn d.items k = statusIn s.items k)
    (hfinal : ∀ status, statusIn s.items key = some status → status.final = false)
    (hkey : Free py key s.trace ∨ ∃ status, statusIn d.items key = some status ∧
      status.blocks = true) : Inv py (s.saveOutbox d) := by
  refine ⟨h.proper.cons (fun a ha => by cases ha), fun k => ?_, rfl, ?_⟩
  · have hfree : ∀ {k}, Free py k s.trace → Free py k (s.saveOutbox d).trace :=
      fun hk => hk.cons (fun a ha => by cases ha)
    rcases eq_or_ne k key with rfl | hne
    · exact hkey.imp_left hfree
    · rcases h.recorded k with hk | ⟨status, hstatus, hblocks⟩
      · exact .inl (hfree hk)
      · exact .inr ⟨status, (hother k hne).trans hstatus, hblocks⟩
  · intro items hitems k status hstatus hf
    rcases List.mem_cons.1 hitems with heq | hmem
    · cases heq
      exact hstatus
    · have hold := h.kept items hmem k status hstatus hf
      rcases eq_or_ne k key with rfl | hne
      · simp [hfinal status hold] at hf
      · exact (hother k hne).trans hold

/-- The events that are no new outbox leave the files as they are. -/
theorem Inv.event {e : Event φ} (h : Inv py s) (hitems : ∀ items, e ≠ .outbox items)
    (he : ∀ a, e = .request a → Allowed py a s.trace ∧ ∃ status,
      statusIn s.items (deliveryKey py a) = some status ∧ status.blocks = true) :
    Inv py { s with trace := e :: s.trace } := by
  refine ⟨h.proper.cons fun a ha => (he a ha).1, fun k => ?_, ?_, ?_⟩
  · rcases h.recorded k with hk | hk
    · by_cases hrequest : ∃ a, e = .request a ∧ deliveryKey py a = k
      · obtain ⟨a, rfl, rfl⟩ := hrequest
        exact .inr (he a rfl).2
      · exact .inl (hk.cons fun a ha hkey => hrequest ⟨a, ha, hkey⟩)
    · exact .inr hk
  · refine Eq.trans ?_ h.latest
    cases e with
    | outbox items => exact absurd rfl (hitems items)
    | request a => rfl
    | answer r => rfl
  · intro items hmem k status hstatus hf
    rcases List.mem_cons.1 hmem with heq | hmem
    · exact absurd heq.symm (hitems items)
    · exact h.kept items hmem k status hstatus hf

theorem Inv.answer (h : Inv py s) (r : Except Raised (Option ℤ)) :
    Inv py { s with trace := .answer r :: s.trace } :=
  h.event (fun items he => by cases he) (fun a he => by cases he)

theorem Inv.sentKeys (h : Inv py s) (keys : Stored SentKeysDocument) :
    Inv py { s with sentKeys := keys } := ⟨h.proper, h.recorded, h.latest, h.kept⟩

/-! ## Memory and file -/

/-- The rows are filed under their own keys. -/
def Keyed (outbox : Outbox) : Prop := ∀ k r, outbox.row k = some r → r.deliveryKey = k

/-- The outbox in memory says of a key what the file says. -/
def Agrees (outbox : Outbox) (s : Root φ) (k : String) : Prop :=
  (outbox.row k).bind OutboxItem.standing = statusIn s.items k

structure Synced (outbox : Outbox) (s : Root φ) : Prop where
  keyed : Keyed outbox
  agrees : ∀ k, Agrees outbox s k

/-- The file that is written from memory says what memory says. -/
theorem statusIn_document {outbox : Outbox} (h : Keyed outbox) (k : String) :
    statusIn (outboxDocument outbox).items k = (outbox.row k).bind OutboxItem.standing := by
  have hmem : ∀ r, r ∈ (outboxDocument outbox).items → outbox.row r.deliveryKey = some r := by
    intro r hr
    obtain ⟨k', -, hrow⟩ := List.mem_filterMap.1 hr
    rw [h k' r hrow, hrow]
  unfold statusIn
  cases hfind : (outboxDocument outbox).items.find? fun r => r.deliveryKey = k with
  | some r =>
      have hk : r.deliveryKey = k := by simpa using List.find?_some hfind
      rw [← hk, hmem r (List.mem_of_find?_eq_some hfind)]
  | none =>
      cases hrow : outbox.row k with
      | none => rfl
      | some r =>
          have hr : r ∈ (outboxDocument outbox).items := by
            refine List.mem_filterMap.2 ⟨k, mem_sortOn.2 ?_, hrow⟩
            simp [outbox.mem_keys, hrow]
          exact absurd (h k r hrow) (by simpa using List.find?_eq_none.1 hfind r hr)

theorem keyed_foldlM {items : List OutboxItem} {out outbox : Outbox} (hout : Keyed out)
    (h : items.foldlM addOutboxItem out = .ok outbox) :
    Keyed outbox ∧ ∀ k, outbox.row k = (out.row k).or (items.find? fun r => r.deliveryKey = k) := by
  induction items generalizing out with
  | nil =>
      obtain rfl : out = outbox := Except.ok.inj h
      exact ⟨hout, fun k => by simp⟩
  | cons item items ih =>
      rw [List.foldlM_cons] at h
      by_cases hvalid : item.Valid
      · by_cases hnew : item.deliveryKey = "" ∨ (out.row item.deliveryKey).isSome
        · simp [addOutboxItem, hvalid, hnew, bind, Except.bind] at h
        · have hadd : addOutboxItem out item = .ok (out.insert item.deliveryKey item) := by
            simp only [addOutboxItem, hvalid, hnew, not_true_eq_false, if_false]
          rw [hadd] at h
          have hnone : out.row item.deliveryKey = none := by
            simpa using (not_or.1 hnew).2
          have hrow := fun k => Table.insert_row hnone item k
          obtain ⟨hkeyed, hrows⟩ := ih (fun k r hr => by
            rw [hrow] at hr
            split_ifs at hr with hk
            · rw [← Option.some.inj hr, hk]
            · exact hout k r hr) h
          refine ⟨hkeyed, fun k => ?_⟩
          rw [hrows, hrow]
          by_cases hk : k = item.deliveryKey
          · subst hk
            simp [hnone]
          · simp [hk, Ne.symm hk]
      · simp [addOutboxItem, hvalid, bind, Except.bind] at h

theorem Synced.load {outbox : Outbox} (h : loadOutbox s.outbox = .ok outbox) :
    Synced outbox s := by
  have hempty : Keyed Table.empty := fun k r hr => by simp at hr
  rcases hfile : s.outbox with _ | _ | _ | d
  · rw [hfile] at h
    obtain rfl : Table.empty = outbox := Except.ok.inj h
    exact ⟨hempty, fun k => by simp [Agrees, Root.items, hfile, statusIn, OutboxDocument.itemsOf]⟩
  · rw [hfile] at h
    cases h
  · rw [hfile] at h
    cases h
  · rw [hfile, loadOutbox] at h
    split_ifs at h
    obtain ⟨hkeyed, hrows⟩ := keyed_foldlM hempty h
    refine ⟨hkeyed, fun k => ?_⟩
    simp only [Agrees, hrows, Root.items, hfile, OutboxDocument.itemsOf, statusIn,
      Table.empty_row, Option.none_or]

/-- The file after the record of an attempt was written. -/
theorem putRecord_row (outbox : Outbox) (r : OutboxItem) (k : String) :
    (putRecord outbox r).row k = if k = r.deliveryKey then some r else outbox.row k :=
  Table.upsert_row _ _ _ _

theorem Keyed.put {outbox : Outbox} (h : Keyed outbox) (r : OutboxItem) :
    Keyed (putRecord outbox r) := by
  intro k r' hr'
  rw [putRecord_row] at hr'
  split_ifs at hr' with hk
  · rw [← Option.some.inj hr', hk]
  · exact h k r' hr'

/-! ## Scripts -/

section Scripts

variable {α : Type} {Q : α → Root φ → Prop} {E : Raised → Root φ → Prop}

theorem wp_attempting {e : Effect φ} {cast : Answer e → Except Raised α}
    (h : ∀ c, Inv py (files.respond e c s).2 ∧
      (∀ a, cast (files.respond e c s).1 = .ok a → Q a (files.respond e c s).2) ∧
      ∀ x, cast (files.respond e c s).1 = .error x → E x (files.respond e c s).2) :
    (attempting e cast).wp files (Inv py) Q E s :=
  fun c => ⟨(h c).1, (Prog.wp_ofExcept _).2 (h c).2⟩

/-- A write of the outbox ends with the new file, or raises with the old one or the new one. -/
theorem wp_writeOutbox {outbox : Outbox} {Q : Unit → Root φ → Prop} (h : Inv py s)
    (hsaved : Inv py (s.saveOutbox (outboxDocument outbox)))
    (hQ : Q () (s.saveOutbox (outboxDocument outbox))) (hE : ∀ x, E x s)
    (hE' : ∀ x, E x (s.saveOutbox (outboxDocument outbox))) :
    (writeOutbox outbox).wp files (Inv py) Q E s := by
  refine wp_attempting fun c => ?_
  rcases hc : c.write with _ | ⟨replaced, x⟩
  · simp only [files, hc, WriteOutcome.answer, WriteOutcome.replaced, if_true, id]
    exact ⟨hsaved, fun _ _ => hQ, fun x hx => by cases hx⟩
  · cases replaced with
    | true =>
        simp only [files, hc, WriteOutcome.answer, WriteOutcome.replaced, if_true, id]
        exact ⟨hsaved, fun _ hok => (by cases hok), fun x _ => hE' x⟩
    | false =>
        simp only [files, hc, WriteOutcome.answer, WriteOutcome.replaced, id]
        exact ⟨h, fun _ hok => (by cases hok), fun x _ => hE x⟩

end Scripts

/-- The records under the other keys are in the file, and the one under the key of the attempt may
be replaced. -/
structure Writable (py : Python φ) (a : Attempt φ) (outbox : Outbox) (s : Root φ) : Prop where
  inv : Inv py s
  keyed : Keyed outbox
  agrees : ∀ k, k ≠ deliveryKey py a → Agrees outbox s k
  replaceable : ∀ status, statusIn s.items (deliveryKey py a) = some status →
    status.final = false

theorem Writable.status {outbox : Outbox} (h : Writable py a outbox s) (o : Outcome) (k : String) :
    statusIn (outboxDocument (putRecord outbox (outboxRecord py a o))).items k =
      if k = deliveryKey py a then some o.status else statusIn s.items k := by
  rw [statusIn_document (h.keyed.put _), putRecord_row]
  split_ifs with hk hk' hk'
  · exact OutboxStatus.ofWord_word o.status
  · exact absurd hk hk'
  · exact absurd hk' hk
  · exact h.agrees k hk'

theorem Writable.save {outbox : Outbox} (h : Writable py a outbox s) (o : Outcome)
    (ho : o.status.blocks = true ∨ Free py (deliveryKey py a) s.trace) :
    Inv py (s.saveOutbox (outboxDocument (putRecord outbox (outboxRecord py a o)))) := by
  have hstatus := h.status o
  refine h.inv.save (fun k hk => ?_) h.replaceable ?_
  · rw [hstatus, if_neg hk]
  · rcases ho with ho | ho
    · exact .inr ⟨o.status, by rw [hstatus, if_pos rfl], ho⟩
    · exact .inl ho

theorem Writable.synced {outbox : Outbox} (h : Writable py a outbox s) (o : Outcome) :
    Synced (putRecord outbox (outboxRecord py a o))
      (s.saveOutbox (outboxDocument (putRecord outbox (outboxRecord py a o)))) :=
  ⟨h.keyed.put _, fun k => (statusIn_document (h.keyed.put _) k).symm⟩

/-- A run between two deliveries. -/
structure Ready (py : Python φ) (m : Memory) (s : Root φ) : Prop where
  inv : Inv py s
  synced : Synced m.outbox s

theorem Ready.sentKeys {m : Memory} (h : Ready py m s) (keys : Stored SentKeysDocument) :
    Ready py m { s with sentKeys := keys } := ⟨h.inv.sentKeys keys, ⟨h.synced.1, h.synced.2⟩⟩

theorem Writable.sentKeys {outbox : Outbox} (h : Writable py a outbox s)
    (keys : Stored SentKeysDocument) : Writable py a outbox { s with sentKeys := keys } :=
  ⟨h.inv.sentKeys keys, h.keyed, h.agrees, h.replaceable⟩

/-- What a part of a run keeps: it ends between two deliveries, or raises with the invariant. -/
abbrev Keeps (py : Python φ) (script : Script φ (Delivery × Memory)) (s : Root φ) : Prop :=
  script.wp files (Inv py) (fun r s' => Ready py r.2 s') (fun _ s' => Inv py s') s

theorem upsert_keeps {outbox : Outbox} (h : Writable py a outbox s) (o : Outcome)
    (ho : o.status.blocks = true ∨ Free py (deliveryKey py a) s.trace) (d : Delivery)
    (sentKeys : List String) :
    Keeps py ((upsertOutboxRecord outbox (outboxRecord py a o)).bind fun outbox' =>
      .ret (d, ⟨outbox', sentKeys⟩)) s := by
  have hsaved := h.save o ho
  exact Prog.wp_bind (Prog.wp_bind (wp_writeOutbox h.inv hsaved ⟨hsaved, h.synced o⟩
    (fun _ => h.inv) (fun _ => hsaved)))

/-- What a raised error or a reply leaves for the record of the outcome. -/
structure Called (py : Python φ) (a : Attempt φ) (outbox : Outbox) (o : Outcome) (s : Root φ) :
    Prop where
  writable : Writable py a outbox s
  settled : o.status.blocks = true ∨ Free py (deliveryKey py a) s.trace

theorem recordOutcome_keeps {m : Memory} {o : Outcome} (h : Called py a m.outbox o s) :
    Keeps py (recordOutcome py a m o) s := by
  unfold recordOutcome
  split_ifs with hsent
  · refine Prog.wp_bind ((Prog.wp_perform _).2 fun c => ?_)
    have hfile : ∀ d, Writable py a m.outbox
        (if c.write.replaced then { s with sentKeys := .document d } else s) := by
      intro d
      split_ifs
      · exact h.writable.sentKeys _
      · exact h.writable
    refine ⟨(hfile _).inv, ?_⟩
    rcases hc : (files.respond (.writeSentKeys (sentKeysDocument (m.addSent
      (deliveryKey py a)).sentKeys)) c s).1 with x | _
    · rcases x with _ | _ | name | _ | _
      all_goals try exact (hfile _).inv
      exact upsert_keeps (hfile _) _ (.inl rfl) _ _
    · exact upsert_keeps (hfile _) o (.inl (by rw [hsent]; rfl)) _ _
  · exact upsert_keeps h.writable o h.settled _ _

theorem raisedOutcome_called {outbox : Outbox} {x : Raised} (h : Writable py a outbox s)
    (hfree : x = .notAttempted → Free py (deliveryKey py a) s.trace) :
    (raisedOutcome a x).wp files (Inv py) (Called py a outbox) (fun _ s' => Inv py s') s := by
  cases x with
  | outboxUnavailable problem => exact ⟨h, .inl rfl⟩
  | notAttempted => exact ⟨h, .inr (hfree rfl)⟩
  | osError name => exact ⟨h, .inl rfl⟩
  | exception name => exact ⟨h, .inl rfl⟩
  | interrupt => exact h.inv

/-- No record under a key of the attempt stands in its way. -/
def Clear (py : Python φ) (a : Attempt φ) (s : Root φ) : Prop :=
  ∀ k ∈ deliveryKeys py a, ∀ status, statusIn s.items k = some status → status.blocks = false

theorem Clear.writable {m : Memory} (hclear : Clear py a s) (h : Ready py m s) :
    Writable py a m.outbox s := by
  refine ⟨h.inv, h.synced.keyed, fun k _ => h.synced.agrees k, fun status hstatus => ?_⟩
  have hblocks := hclear _ (deliveryKey_mem py a) status hstatus
  cases status <;> simp_all [OutboxStatus.blocks, OutboxStatus.final]

theorem Clear.free (hclear : Clear py a s) (h : Inv py s) :
    Free py (deliveryKey py a) s.trace := by
  rcases h.recorded (deliveryKey py a) with hfree | ⟨status, hstatus, hblocks⟩
  · exact hfree
  · simp [hclear _ (deliveryKey_mem py a) status hstatus] at hblocks

/-- A call right after its own record was written is allowed. -/
theorem Clear.allowed {d : OutboxDocument} (hclear : Clear py a s) (h : Inv py s)
    (hd : ∀ k, statusIn d.items k =
      if k = deliveryKey py a then some .pending else statusIn s.items k) :
    Allowed py a (s.saveOutbox d).trace := by
  refine ⟨fun a' before hsuffix hpair => ?_, ⟨d.items, s.trace, rfl, ?_⟩, ?_⟩
  · have hfree : Free py (deliveryKey py a) (s.saveOutbox d).trace :=
      (hclear.free h).cons fun a ha => by cases ha
    exact hfree a' before hsuffix (deliveryKey_congr py hpair)
  · intro k hk hpending
    rw [h.latest] at hpending
    exact absurd (hclear k hk _ hpending) (by decide)
  · intro items hitems k hk status hstatus
    by_contra hfinal
    have hfinal : status.final = true := by simpa using hfinal
    have hold : statusIn s.items k = some status := by
      rcases List.mem_cons.1 hitems with heq | hmem
      · obtain rfl : items = d.items := Event.outbox.inj heq
        rw [hd] at hstatus
        split_ifs at hstatus with hkey
        · rw [← Option.some.inj hstatus] at hfinal
          cases hfinal
        · exact hstatus
      · exact h.kept items hmem k status hstatus hfinal
    have hblocks := hclear k hk status hold
    cases status <;> simp_all [OutboxStatus.blocks, OutboxStatus.final]

theorem attemptDelivery_keeps {m : Memory} (h : Ready py m s) (hclear : Clear py a s) :
    Keeps py (attemptDelivery py a m) s := by
  have hw := hclear.writable h
  have hfree := hclear.free h.inv
  have hsaved := hw.save (pendingOutcome a) (.inl rfl)
  have hsync := hw.synced (pendingOutcome a)
  have hstatus := hw.status (pendingOutcome a)
  have hallowed := hclear.allowed h.inv hstatus
  set outbox := putRecord m.outbox (outboxRecord py a (pendingOutcome a)) with houtbox
  set s₁ := s.saveOutbox (outboxDocument outbox) with hs₁
  -- the file as it was, the file with the pending record, and both behind the call
  have hold : Writable py a outbox s := by
    refine ⟨h.inv, hw.keyed.put _, fun k hk => ?_, hw.replaceable⟩
    have hrow : outbox.row k = m.outbox.row k := (putRecord_row _ _ k).trans (if_neg hk)
    rw [Agrees, hrow]
    exact hw.agrees k hk
  have hnew : ∀ s', s'.items = s₁.items → Inv py s' → Writable py a outbox s' := by
    intro s' hitems hinv
    refine ⟨hinv, hw.keyed.put _, fun k _ => ?_, fun status hs => ?_⟩
    · rw [Agrees, hitems]
      exact hsync.agrees k
    · rw [hitems, hs₁, saveOutbox_items, hstatus, if_pos rfl] at hs
      rw [← Option.some.inj hs]
      rfl
  have hfree₁ : Free py (deliveryKey py a) s₁.trace := hfree.cons fun a ha => by cases ha
  refine Prog.wp_bind (Prog.wp_mono (fun o s' ho => recordOutcome_keeps ho) (fun _ _ => id)
    (Prog.wp_catching ?_))
  refine Prog.wp_bind (wp_writeOutbox h.inv hsaved ?_
    (fun x => raisedOutcome_called hold fun _ => hfree)
    (fun x => raisedOutcome_called (hnew _ rfl hsaved) fun _ => hfree₁))
  refine Prog.wp_bind (Prog.wp_bind ((Prog.wp_perform _).2 fun c => ?_))
  have hrequest : Inv py { s₁ with trace := .request a :: s₁.trace } := by
    refine hsaved.event (fun items he => by cases he) fun a' ha' => ?_
    cases ha'
    refine ⟨hallowed, .pending, ?_, rfl⟩
    rw [hs₁, saveOutbox_items, hstatus, if_pos rfl]
    rfl
  refine ⟨hrequest, wp_attempting fun c => ?_⟩
  have hanswer := hrequest.answer c.reply
  refine ⟨hanswer, fun reply hreply => ?_, fun x hx => ?_⟩
  · refine ⟨hnew _ rfl hanswer, ?_⟩
    cases reply with
    | some id => exact .inl rfl
    | none => exact .inr (hfree₁.refused (.inl hreply))
  · refine raisedOutcome_called (hnew _ rfl hanswer) fun hnot => ?_
    exact hfree₁.refused (.inr (by rw [← hnot]; exact hx))

theorem recordWith_eq_none {outbox : Outbox} {keys : List String} {status : OutboxStatus}
    (h : recordWith outbox keys status = none) {k : String} (hk : k ∈ keys) :
    (outbox.row k).bind OutboxItem.standing ≠ some status := by
  intro hstatus
  obtain ⟨r, hrow, hr⟩ := Option.bind_eq_some_iff.1 hstatus
  have hnone := List.findSome?_eq_none_iff.1 h k hk
  simp [hrow, hr] at hnone

theorem skipDuplicate_keeps {m : Memory} (h : Ready py m s) (r : Report) :
    Keeps py (skipDuplicate py a m r) s := by
  have hsynced : ∀ {s'}, Ready py m s' → Ready py (m.addSent (deliveryKey py a)) s' :=
    fun h' => ⟨h'.inv, h'.synced⟩
  refine Prog.wp_bind (wp_attempting fun c => ?_)
  have hfile : Ready py m (files.respond (.writeSentKeys (sentKeysDocument
      (m.addSent (deliveryKey py a)).sentKeys)) c s).2 := by
    simp only [files]
    split_ifs
    · exact h.sentKeys _
    · exact h
  exact ⟨hfile.inv, fun _ _ => hsynced hfile, fun _ _ => hfile.inv⟩

theorem sendCaptured_keeps {m : Memory} (h : Ready py m s) : Keeps py (sendCaptured py a m) s := by
  unfold sendCaptured
  dsimp only
  split
  next => exact h
  next => exact h
  next => exact h
  next => exact skipDuplicate_keeps h _
  next hsuppressed hambiguous hpending hcompleted =>
    split_ifs
    · exact skipDuplicate_keeps h _
    · refine attemptDelivery_keeps h fun k hk status hstatus => ?_
      have hrow : (m.outbox.row k).bind OutboxItem.standing = some status :=
        (h.synced.agrees k).trans hstatus
      cases status with
      | completed => exact absurd hrow (recordWith_eq_none hcompleted hk)
      | error => rfl
      | externalAckAmbiguous => exact absurd hrow (recordWith_eq_none hambiguous hk)
      | operatorSuppressedNoReplay => exact absurd hrow (recordWith_eq_none hsuppressed hk)
      | pending => exact absurd hrow (recordWith_eq_none hpending hk)
      | skippedNoToken => rfl

/-- Looking for the chart changes nothing. -/
theorem wp_safeChartPath {item : Item φ} {Q : Option String × String → Root φ → Prop}
    {E : Raised → Root φ → Prop} (h : Inv py s) (hQ : ∀ chart, Q chart s) (hE : ∀ x, E x s) :
    (safeChartPath py item).wp files (Inv py) Q E s := by
  unfold safeChartPath
  dsimp only
  split_ifs
  · exact hQ _
  · exact wp_attempting fun c => ⟨h, fun _ _ => hQ _, fun _ _ => hE _⟩

theorem sendItem_keeps {m : Memory} {photo : Bool} {job : Item φ × String} (h : Ready py m s) :
    Keeps py (sendItem py photo m job) s := by
  refine Prog.wp_bind (wp_safeChartPath h.inv (fun chart => ?_) fun _ => h.inv)
  rcases chart with ⟨_ | path, problem⟩
  · dsimp only
    by_cases hchart : py.strip (job.1.text py "chart_path") ≠ ""
    · rw [if_pos hchart]
      exact h
    · rw [if_neg hchart]
      exact sendCaptured_keeps h
  · dsimp only
    split_ifs
    · exact h
    · exact h
    · refine Prog.wp_bind ((Prog.wp_perform _).2 fun c => ⟨h.inv, ?_⟩)
      rcases hc : c.payload with x | payload
      · simp only [files, hc]
        cases x with
        | osError name => exact h
        | outboxUnavailable problem => exact h.inv
        | notAttempted => exact h.inv
        | exception name => exact h.inv
        | interrupt => exact h.inv
      · simp only [files, hc]
        exact sendCaptured_keeps h

/-! ## Runs -/

/-- A part of a run between deliveries. -/
abbrev Stays {α : Type} (py : Python φ) (script : Script φ α) (s : Root φ) : Prop :=
  script.wp files (Inv py) (fun _ s' => Inv py s') (fun _ s' => Inv py s') s

theorem unavailableDeliveries_stays {problem : String} {status : DeliveryStatus}
    {jobs : List (Item φ × String)} (h : Inv py s) :
    Stays py (unavailableDeliveries py problem status jobs) s := by
  refine Prog.wp_forEach (Q := fun _ s' => Inv py s') (fun ds s' job _ h' => ?_) h
  exact Prog.wp_bind (Prog.wp_bind (wp_safeChartPath h' (fun _ => Prog.wp_bind
    (wp_safeChartPath h' (fun _ => h') fun _ => h')) fun _ => h'))

theorem sendItems_stays {photo : Bool} {items : List (Item φ)}
    {recipientIds sentKeys : List String} (h : Inv py s) :
    Stays py (sendItems py photo items recipientIds sentKeys) s := by
  refine Prog.wp_bind (wp_attempting fun c => ⟨h, fun loaded hloaded => ?_, fun _ _ => h⟩)
  cases loaded with
  | error problem =>
      exact Prog.wp_bind (Prog.wp_mono (fun _ _ => id) (fun _ _ => id)
        (unavailableDeliveries_stays h))
  | ok outbox =>
      have hload : loadOutbox s.outbox = .ok outbox := by
        rcases hfault : c.readFault with _ | x <;> simp [files, hfault, Except.map] at hloaded
        exact hloaded
      refine Prog.wp_bind (Prog.wp_mono
        (fun (acc : List Delivery × Memory) s' (h' : Ready py acc.2 s') => h'.inv)
        (fun _ _ => id) (Prog.wp_forEach (Q := fun acc s' => Ready py acc.2 s')
          (fun (acc : List Delivery × Memory) s' job _ h' => ?_) ⟨h, Synced.load hload⟩))
      exact Prog.wp_bind (Prog.wp_mono (fun _ _ => id) (fun _ _ => id) (sendItem_keeps h'))

theorem unaddressed_stays (run : Run φ) (h : Inv py s) : Stays py (run.unaddressed py) s := by
  unfold Run.unaddressed
  split_ifs
  · refine Prog.wp_forEach (Q := fun _ s' => Inv py s') (fun ds s' item _ h' => ?_) h
    exact Prog.wp_bind (Prog.wp_bind (wp_safeChartPath h' (fun _ => Prog.wp_bind
      (wp_safeChartPath h' (fun _ => h') fun _ => h')) fun _ => h'))
  · exact h

theorem reportUnavailable_stays (run : Run φ) (sofar : Run.Deliveries) (x : Raised)
    (h : Inv py s) : Stays py (run.reportUnavailable py sofar x) s := by
  cases x with
  | outboxUnavailable problem => exact Prog.wp_bind (unavailableDeliveries_stays h)
  | osError name => exact Prog.wp_bind (unavailableDeliveries_stays h)
  | notAttempted => exact h
  | exception name => exact h
  | interrupt => exact h

theorem sendPaperTelegramPreviews_stays (run : Run φ) (h : Inv py s) :
    Stays py (run.sendPaperTelegramPreviews py) s := by
  unfold Run.sendPaperTelegramPreviews
  dsimp only
  split_ifs
  · exact Prog.wp_bind (unaddressed_stays run h)
  refine Prog.wp_tryElse (Prog.wp_mono (fun first s' h' => ?_)
    (fun x s' h' => reportUnavailable_stays run _ x h')
    (Q := fun _ s' => Inv py s') (E := fun _ s' => Inv py s') ?_)
  · refine Prog.wp_tryElse (Prog.wp_mono (fun ds s'' h'' => h'')
      (fun x s'' h'' => reportUnavailable_stays run _ x h'')
      (Q := fun _ s'' => Inv py s'') (E := fun _ s'' => Inv py s'') ?_)
    unfold Run.sendDigest
    dsimp only
    split_ifs
    · exact Prog.wp_bind (Prog.wp_mono (fun _ _ => id) (fun _ _ => id) (sendItems_stays h'))
    · exact h'
  · exact Prog.wp_bind (wp_attempting fun c =>
      ⟨h, fun sentKeys _ => sendItems_stays h, fun _ _ => h⟩)

/-- Processes that run the sender on one private root. -/
abbrev Senders (φ : Type) := Crew (Effect φ) Answer Raised (Run φ) ℕ (Root φ)

/-- What the processes do to a root, in any order and with any crashes. -/
def Senders.after (py : Python φ) (outbox : Stored OutboxDocument)
    (sentKeys : Stored SentKeysDocument) (moves : List (Move (Run φ) ℕ Circumstance)) : Senders φ :=
  Crew.run files (fun run => (run.sendPaperTelegramPreviews py).bind fun _ => .ret ⟨⟩)
    (Crew.start (Root.found outbox sentKeys)) moves

/-- Whatever the previews, the transport, the writes, the crashes and the order of the processes
are, every call of the transport is one that its history allows. -/
theorem delivered_at_most_once (py : Python φ) (outbox : Stored OutboxDocument)
    (sentKeys : Stored SentKeysDocument) (moves : List (Move (Run φ) ℕ Circumstance)) :
    Proper py (Senders.after py outbox sentKeys moves).shared.trace := by
  have hinv : Inv py (Senders.after py outbox sentKeys moves).shared := by
    refine Crew.run_invariant (fun run s h => ?_) (Inv.found outbox sentKeys) moves
    exact Prog.wp_bind (Prog.wp_mono (fun _ _ _ => trivial) (fun _ _ _ => trivial)
      (sendPaperTelegramPreviews_stays run h))
  exact hinv.proper

/-! ## Two runs over one preview -/

/-- A language with one hash. -/
def plainPython : Python Empty where
  str _ := ""
  strip := id
  repr x := x.elim
  isZero x := x.elim
  sha256 _ := "0"
  sha256Bytes _ := ""

def samplePreview : Item Empty :=
  [("schema", .str "PaperTelegramPreview.v1"), ("paper_only", .bool true),
    ("execution_allowed", .bool false), ("source_signal_id", .str "signal"),
    ("telegram_card_id", .str "card"), ("text", .str requiredDisclaimer)]

def sampleRun : Run Empty where
  items := [samplePreview]
  source := ⟨true, 1, 0, 0⟩
  limit := 20
  apply := true
  paperChatConfigured := true
  recipientIds := ["7"]
  sendText := true
  sendPhoto := false
  statusDigest := false
  digest _ := samplePreview

/-- A process that runs to its end while nothing fails. -/
def sampleMoves (p : ℕ) (reply : Except Raised (Option ℤ)) : List (Move (Run Empty) ℕ Circumstance) :=
  [.arrive p sampleRun, .acquire p] ++
    List.replicate 7 (.act p ⟨.ok (.inr .missing), .ok [], none, .done, reply⟩) ++ [.leave p]

def requests (moves : List (Move (Run Empty) ℕ Circumstance)) : ℕ :=
  (Senders.after plainPython .missing .missing moves).shared.trace.countP fun
    | .request _ => true
    | _ => false

example : requests (sampleMoves 0 (.ok (some 1)) ++ sampleMoves 1 (.ok (some 1))) = 1 := by
  decide +kernel

example : requests (sampleMoves 0 (.ok none) ++ sampleMoves 1 (.ok (some 1))) = 2 := by
  decide +kernel

end ResearchLab.Telegram
