import Mathlib
import ResearchLab.Foundation.Grouping
import ResearchLab.TradeThesis.Events
import ResearchLab.TradeThesis.Incremental

/-!
# The log of the transitions

Which transitions of the theses a call appends to the event log.
-/
namespace ResearchLab.TradeThesis
open Foundation

section
variable (env : Env) (files : Files) (call : Call)

/-! ## Transitions -/

/-- A symbol's thesis is opened, has another state than before, or is closed; with what the id of the
event of this transition is made of. -/
inductive Changes : String → EventType → EventPayload → Prop
  | opened {symbol : String} {thesis : Thesis} : symbol ∈ activeSymbols call.ledger →
      activeThesis env files call symbol = some thesis → previousActive files symbol = none →
      Changes symbol .scenarioOpened (.opened thesis.thesisId)
  | updated {symbol : String} {thesis previous : Thesis} : symbol ∈ activeSymbols call.ledger →
      activeThesis env files call symbol = some thesis →
      previousActive files symbol = some previous → previous.stateHash ≠ thesis.stateHash →
      Changes symbol .scenarioUpdated (.updated thesis.thesisId thesis.stateHash)
  | closed {symbol : String} {previous : Thesis} : symbol ∉ activeSymbols call.ledger →
      previousActive files symbol = some previous →
      Changes symbol .scenarioClosed (.closed previous.thesisId
        (closeResult (rowBySignal call.ledger previous.primarySignalId)))

/-- Every transition of the call has exactly one line of its kind in what the call appends. -/
def LogsEach : Prop :=
  ∀ symbol type payload, Changes env files call symbol type payload →
    (writtenEvents env files call).countP
      (fun event => event.symbol = symbol ∧ event.eventType = type) = 1

/-! ## The state before a call -/

/-- What the id of an event is made of, read off its fields. -/
def ThesisEvent.payload (event : ThesisEvent) : EventPayload :=
  match event.eventType with
  | .scenarioOpened => .opened event.thesisId
  | .scenarioUpdated => .updated event.thesisId event.stateHash
  | .scenarioClosed => .closed event.thesisId event.terminalResult
  | type => .signal event.thesisId event.sourceSignalId type.text event.supervisorAction

/-- The log has a line for this opening, this state, this result or this observation of a thesis. -/
def logged (payload : EventPayload) : Bool :=
  files.eventLog.any fun event => event.payload = payload

def transitionPayload (previous : Option Thesis) (thesis : Thesis) : Option EventPayload :=
  match previous with
  | none => some (.opened thesis.thesisId)
  | some old =>
      if old.stateHash ≠ thesis.stateHash then some (.updated thesis.thesisId thesis.stateHash)
      else none

def observationPayload (thesis : Thesis) (row : Row) : EventPayload :=
  let (type, action, _) := classifySignal thesis row
  .signal thesis.thesisId row.signalId type.text action

/-- What there is to log for a symbol: its transition and its observations. -/
def payloadsOf (symbol : String) : List EventPayload :=
  if symbol ∈ activeSymbols call.ledger then
    match activeThesis env files call symbol with
    | none => []
    | some thesis => (transitionPayload (previousActive files symbol) thesis).toList ++
        (groupOf call.ledger symbol).map (observationPayload thesis)
  else ((previousActive files symbol).map fun previous => .closed previous.thesisId
    (closeResult (rowBySignal call.ledger previous.primarySignalId))).toList

/-- The symbols of the call in order: the active ones, then those whose thesis ends. -/
def callSymbols : List String := activeSymbols call.ledger ++ endedSymbols files call

/-- How much there is to log from a symbol on that the log does not hold. -/
def unloggedFrom (symbol : String) : ℕ :=
  (((callSymbols files call).dropWhile (· ≠ symbol)).map fun other =>
    (payloadsOf env files call other).countP fun payload => !logged files payload).sum

/-- No thesis comes back to what the log has a line for, and from each transition on there is no more
to log than the tail has room for. -/
structure Loggable : Prop where
  new : ∀ symbol type payload, Changes env files call symbol type payload →
    logged files payload = false
  room : ∀ symbol type payload, Changes env files call symbol type payload →
    unloggedFrom env files call symbol ≤ tailLimit

/-- The texts of a row that events show. -/
def Row.texts (row : Row) : List String :=
  [row.sourceSignalId, row.paperProductTradeId, row.okxInstId, row.symbol, row.side, row.timeframe,
    row.status, row.setupFamily, row.result, createdSortKey env row]

/-- No text of the ledger ends a line. -/
structure Call.OneLine (env : Env) (call : Call) : Prop where
  rows : ∀ row ∈ call.ledger, ∀ text ∈ row.texts env, onOneLine text = true
  now : ∀ symbol, onOneLine (call.now symbol) = true

/-- The digests of the ids do not collide. -/
structure Env.CollisionFree (env : Env) : Prop where
  events : Function.Injective env.eventDigest
  theses : ∀ symbol startedAt symbol' startedAt',
    env.thesisDigest symbol startedAt = env.thesisDigest symbol' startedAt' → symbol = symbol'

/-- The event of a symbol's transition. -/
def changeEvent (symbol : String) : Option ThesisEvent :=
  if symbol ∈ activeSymbols call.ledger then
    (activeThesis env files call symbol).bind (transitionEvent env symbol (previousActive files symbol))
  else (previousActive files symbol).map (closedEvent env call symbol)

/-- The events of a symbol of the call. -/
def eventsOf (symbol : String) : List ThesisEvent :=
  if symbol ∈ activeSymbols call.ledger then symbolEvents env files call symbol
  else ((previousActive files symbol).map (closedEvent env call symbol)).toList

end

variable {env : Env} {files : Files} {call : Call} {symbol : String} {type : EventType}
  {event : ThesisEvent} {payload : EventPayload}

theorem mem_previousSymbols :
    symbol ∈ previousSymbols files ↔ ∃ previous, previousActive files symbol = some previous := by
  rw [previousSymbols, mem_sortOn, List.mem_dedup, previousActive]
  by_cases hempty : symbol = ""
  · subst hempty
    simp
  · rw [if_neg hempty]
    simp only [List.mem_map, List.mem_filter, decide_eq_true_eq]
    constructor
    · rintro ⟨item, ⟨hitem, hactive, -⟩, rfl⟩
      have hin : item ∈ files.items.filter fun other =>
          other.status = .active ∧ other.symbol = item.symbol :=
        List.mem_filter.2 ⟨hitem, by simp [hactive]⟩
      exact ⟨_, List.getLast?_eq_some_getLast (List.ne_nil_of_mem hin)⟩
    · rintro ⟨item, hlast⟩
      obtain ⟨hitem, hkept⟩ := List.mem_filter.1 (List.mem_of_getLast? hlast)
      simp only [decide_eq_true_eq] at hkept
      exact ⟨item, ⟨hitem, hkept.1, by rw [hkept.2]; exact hempty⟩, hkept.2⟩

theorem classifySignal_type (thesis : Thesis) (row : Row) :
    (classifySignal thesis row).1.isScenario = false := by
  simp only [classifySignal]
  split_ifs <;> rfl

theorem transitionEvent_spec {previous : Option Thesis} {thesis : Thesis}
    (h : transitionEvent env symbol previous thesis = some event) :
    event.symbol = symbol ∧ event.eventType.isScenario = true := by
  cases previous with
  | none =>
    cases h
    exact ⟨rfl, rfl⟩
  | some old =>
    rw [transitionEvent] at h
    by_cases hne : old.stateHash ≠ thesis.stateHash
    · rw [if_pos hne] at h
      cases h
      exact ⟨rfl, rfl⟩
    · rw [if_neg hne] at h
      cases h

theorem symbol_of_mem_symbolEvents (h : event ∈ symbolEvents env files call symbol) :
    event.symbol = symbol := by
  rw [symbolEvents] at h
  cases hthesis : activeThesis env files call symbol with
  | none => simp [hthesis] at h
  | some thesis =>
    simp only [hthesis, List.mem_append, Option.mem_toList, List.mem_map] at h
    rcases h with h | ⟨row, -, rfl⟩
    · exact (transitionEvent_spec h).1
    · rfl

/-- Of the events of an active symbol only that of its transition is a scenario event. -/
theorem filter_symbolEvents : (symbolEvents env files call symbol).filter
      (fun event => event.symbol = symbol ∧ event.eventType.isScenario) =
    ((activeThesis env files call symbol).bind
      (transitionEvent env symbol (previousActive files symbol))).toList := by
  rw [symbolEvents]
  cases activeThesis env files call symbol with
  | none => rfl
  | some thesis =>
    simp only [List.filter_append, Option.bind_some]
    have hsignals : ((sortOn (fun row => toLex (createdSortKey env row, row.sourceSignalId) :
        Row → String ×ₗ String) (groupOf call.ledger symbol)).map (signalEvent env symbol thesis)).filter
          (fun event => event.symbol = symbol ∧ event.eventType.isScenario) = [] := by
      rw [List.filter_eq_nil_iff]
      intro other hother
      obtain ⟨row, -, rfl⟩ := List.mem_map.1 hother
      have htype : (signalEvent env symbol thesis row).eventType.isScenario = false :=
        classifySignal_type thesis row
      simp [htype]
    rw [hsignals, List.append_nil]
    cases htransition : transitionEvent env symbol (previousActive files symbol) thesis with
    | none => rfl
    | some event => simp [transitionEvent_spec htransition]

variable (env files call) in
/-- The scenario events of a symbol in a call: the one of its transition. -/
theorem filter_newEvents (symbol : String) : (newEvents env files call).filter
      (fun event => event.symbol = symbol ∧ event.eventType.isScenario) =
    (changeEvent env files call symbol).toList := by
  have hactive : (activeSymbols call.ledger).Nodup :=
    (sortOn_perm id _).nodup_iff.2 (List.nodup_dedup _)
  have hended : (endedSymbols files call).Nodup :=
    ((sortOn_perm id _).nodup_iff.2 (List.nodup_dedup _)).filter _
  rw [newEvents, List.filter_append, changeEvent,
    filter_flatMap_of_nodup (a := symbol) hactive, filter_flatMap_of_nodup (a := symbol) hended]
  · by_cases hmem : symbol ∈ activeSymbols call.ledger
    · have hnot : symbol ∉ endedSymbols files call := by simp [endedSymbols, hmem]
      rw [if_pos hmem, if_neg hnot, if_pos hmem, List.append_nil, filter_symbolEvents]
    · rw [if_neg hmem, if_neg hmem, List.nil_append]
      cases hprevious : previousActive files symbol with
      | none =>
        have hnot : symbol ∉ endedSymbols files call := by
          intro hin
          obtain ⟨previous, h⟩ := mem_previousSymbols.1 (List.mem_filter.1 hin).1
          rw [hprevious] at h
          cases h
        rw [if_neg hnot]
        rfl
      | some previous =>
        have hin : symbol ∈ endedSymbols files call :=
          List.mem_filter.2 ⟨mem_previousSymbols.2 ⟨previous, hprevious⟩, by simpa using hmem⟩
        rw [if_pos hin]
        simp [closedEvent, scenarioEvent, EventType.isScenario]
  · intro other _ hne
    rw [List.filter_eq_nil_iff]
    intro event hevent
    cases hprevious : previousActive files other with
    | none => simp [hprevious] at hevent
    | some previous =>
      simp only [hprevious, Option.map_some, Option.toList_some, List.mem_singleton] at hevent
      subst hevent
      simp [closedEvent, scenarioEvent, hne]
  · intro other _ hne
    rw [List.filter_eq_nil_iff]
    intro event hevent
    simp [symbol_of_mem_symbolEvents hevent, hne]

/-- The event of a transition is one of the call. -/
theorem mem_newEvents_of_change (hchange : changeEvent env files call symbol = some event) :
    event ∈ newEvents env files call ∧ event.symbol = symbol ∧ event.eventType.isScenario = true := by
  have hmem : event ∈ (changeEvent env files call symbol).toList := Option.mem_toList.2 hchange
  rw [← filter_newEvents env files call symbol, List.mem_filter, decide_eq_true_eq] at hmem
  exact hmem

theorem changes_iff : Changes env files call symbol type payload ↔
    ∃ event, changeEvent env files call symbol = some event ∧ event.eventType = type ∧
      event.payload = payload := by
  rw [changeEvent]
  constructor
  · intro h
    cases h with
    | opened hmem hthesis hprevious =>
      rw [if_pos hmem, hthesis, hprevious]
      exact ⟨_, rfl, rfl, rfl⟩
    | updated hmem hthesis hprevious hne =>
      rw [if_pos hmem, hthesis, hprevious, Option.bind_some, transitionEvent, if_pos hne]
      exact ⟨_, rfl, rfl, rfl⟩
    | closed hmem hprevious =>
      rw [if_neg hmem, hprevious]
      exact ⟨_, rfl, rfl, rfl⟩
  · rintro ⟨event, hevent, rfl, rfl⟩
    by_cases hmem : symbol ∈ activeSymbols call.ledger
    · rw [if_pos hmem, Option.bind_eq_some_iff] at hevent
      obtain ⟨thesis, hthesis, htransition⟩ := hevent
      cases hprevious : previousActive files symbol with
      | none =>
        rw [hprevious] at htransition
        cases htransition
        exact .opened hmem hthesis hprevious
      | some previous =>
        rw [hprevious, transitionEvent] at htransition
        by_cases hne : previous.stateHash ≠ thesis.stateHash
        · rw [if_pos hne] at htransition
          cases htransition
          exact .updated hmem hthesis hprevious hne
        · rw [if_neg hne] at htransition
          cases htransition
    · rw [if_neg hmem, Option.map_eq_some_iff] at hevent
      obtain ⟨previous, hprevious, rfl⟩ := hevent
      have hclosed : Changes env files call symbol .scenarioClosed (.closed previous.thesisId
        (closeResult (rowBySignal call.ledger previous.primarySignalId))) := .closed hmem hprevious
      exact hclosed

/-! ## The lines of a call -/

theorem eventId_ne_empty (payload : EventPayload) : eventId env payload ≠ "" := by
  intro h
  have hlist := congrArg String.toList h
  simp [eventId, String.toList_append] at hlist

theorem eventId_of_mem_newEvents (h : event ∈ newEvents env files call) : event.eventId ≠ "" := by
  rw [newEvents, List.mem_append, List.mem_flatMap, List.mem_flatMap] at h
  rcases h with ⟨symbol, -, h⟩ | ⟨symbol, -, h⟩
  · rw [symbolEvents] at h
    cases hthesis : activeThesis env files call symbol with
    | none => simp [hthesis] at h
    | some thesis =>
      simp only [hthesis, List.mem_append, Option.mem_toList, List.mem_map] at h
      rcases h with h | ⟨row, -, rfl⟩
      · cases hprevious : previousActive files symbol with
        | none =>
          rw [hprevious] at h
          cases h
          exact eventId_ne_empty _
        | some old =>
          rw [hprevious, transitionEvent] at h
          by_cases hne : old.stateHash ≠ thesis.stateHash
          · rw [if_pos hne] at h
            cases h
            exact eventId_ne_empty _
          · rw [if_neg hne] at h
            cases h
      · exact eventId_ne_empty _
  · simp only [Option.mem_toList, Option.map_eq_some_iff] at h
    obtain ⟨previous, -, rfl⟩ := h
    exact eventId_ne_empty _

section
variable {known : List String} {events events' : List ThesisEvent}

theorem unwritten_sublist : (unwritten known events).Sublist events := by
  induction events generalizing known with
  | nil => exact List.Sublist.refl _
  | cons event events ih =>
    rw [unwritten]
    split_ifs
    · exact ih.cons_cons _
    · exact ih.cons _

/-- Items with known ids are passed over. -/
theorem unwritten_append (h : ∀ event ∈ events, event.eventId ∈ known) :
    unwritten known (events ++ events') = unwritten known events' := by
  induction events with
  | nil => rfl
  | cons event events ih =>
    have hknown : ¬(event.eventId ≠ "" ∧ event.eventId ∉ known) := fun hnew =>
      hnew.2 (h event List.mem_cons_self)
    rw [List.cons_append, unwritten, if_neg hknown]
    exact ih fun other hother => h other (List.mem_cons_of_mem _ hother)

/-- What is written of a list are the first items with new ids. -/
theorem mem_unwritten : event ∈ unwritten known events ↔
    event.eventId ≠ "" ∧ event.eventId ∉ known ∧
      events.find? (fun other => other.eventId = event.eventId) = some event := by
  induction events generalizing known with
  | nil => simp [unwritten]
  | cons head events ih =>
    rw [unwritten]
    by_cases hsame : head.eventId = event.eventId
    · have hfind : (head :: events).find? (fun other => other.eventId = event.eventId) = some head := by
        simp [hsame]
      rw [hfind, Option.some.injEq]
      split_ifs with hnew
      · rw [List.mem_cons, ih, List.mem_cons, hsame, not_or]
        constructor
        · rintro (rfl | ⟨-, ⟨hne, -⟩, -⟩)
          · exact ⟨hnew.1, hnew.2, rfl⟩
          · exact absurd rfl hne
        · rintro ⟨-, -, rfl⟩
          exact Or.inl rfl
      · rw [ih]
        constructor
        · rintro ⟨hne, hunknown, -⟩
          exact absurd (hsame ▸ ⟨hne, hunknown⟩) hnew
        · rintro ⟨hne, hunknown, -⟩
          exact absurd (hsame ▸ ⟨hne, hunknown⟩) hnew
    · have hfind : (head :: events).find? (fun other => other.eventId = event.eventId) =
          events.find? fun other => other.eventId = event.eventId := by
        simp [hsame]
      rw [hfind]
      split_ifs with hnew
      · rw [List.mem_cons, ih, List.mem_cons, not_or]
        constructor
        · rintro (rfl | ⟨hne, ⟨-, hunknown⟩, hfound⟩)
          · exact absurd rfl hsame
          · exact ⟨hne, hunknown, hfound⟩
        · rintro ⟨hne, hunknown, hfound⟩
          exact Or.inr ⟨hne, ⟨fun heq => hsame heq.symm, hunknown⟩, hfound⟩
      · exact ih

theorem nodup_unwritten : ((unwritten known events).map ThesisEvent.eventId).Nodup := by
  induction events generalizing known with
  | nil => exact List.nodup_nil
  | cons event events ih =>
    rw [unwritten]
    split_ifs
    · rw [List.map_cons, List.nodup_cons]
      refine ⟨fun hin => ?_, ih⟩
      obtain ⟨other, hother, hsame⟩ := List.mem_map.1 hin
      exact (mem_unwritten.1 hother).2.1 (by simp [hsame])
    · exact ih

end

/-- The last events of the call that the log does not hold, as many as the tail has room for. -/
def lastUnlogged (env : Env) (files : Files) (call : Call) : List ThesisEvent :=
  (appendedEvents env files call).drop ((appendedEvents env files call).length - tailLimit)

theorem writtenEvents_eq : writtenEvents env files call =
    unwritten (knownIds files) (lastUnlogged env files call) := by
  have hroom : (readEvents files.eventLog).length + (appendedEvents env files call).length -
      tailLimit - (readEvents files.eventLog).length =
        (appendedEvents env files call).length - tailLimit := by omega
  simp only [writtenEvents, eventItems, List.length_append]
  rw [List.drop_append, unwritten_append, hroom, lastUnlogged]
  intro event hevent
  exact List.mem_map_of_mem (List.mem_of_mem_drop hevent)

theorem writtenEvents_sublist : (writtenEvents env files call).Sublist (newEvents env files call) := by
  rw [writtenEvents_eq]
  exact unwritten_sublist.trans ((List.drop_sublist _ _).trans List.filter_sublist)

theorem countP_written (hchange : changeEvent env files call symbol = some event) :
    (writtenEvents env files call).countP
        (fun other => other.symbol = symbol ∧ other.eventType = event.eventType) = 1 ↔
      event ∈ writtenEvents env files call := by
  have hfilter := filter_newEvents env files call symbol
  rw [hchange, Option.toList_some] at hfilter
  obtain ⟨hnew, hsymbol, hscenario⟩ := mem_newEvents_of_change hchange
  have hkind : ∀ other : ThesisEvent, other.symbol = symbol ∧ other.eventType = event.eventType →
      other.symbol = symbol ∧ other.eventType.isScenario = true := by
    rintro other ⟨hother, htype⟩
    exact ⟨hother, htype ▸ hscenario⟩
  -- only the event itself can be counted
  have hsub : ((writtenEvents env files call).filter fun other =>
      other.symbol = symbol ∧ other.eventType = event.eventType).Sublist [event] := by
    rw [← hfilter]
    refine (List.monotone_filter_right _ fun other hother => ?_).trans (writtenEvents_sublist.filter _)
    simp only [decide_eq_true_eq] at hother ⊢
    exact hkind other hother
  rw [List.countP_eq_length_filter]
  constructor
  · intro hone
    have heq := hsub.eq_of_length hone
    have hmem : event ∈ [event] := List.mem_singleton_self event
    rw [← heq] at hmem
    exact (List.mem_filter.1 hmem).1
  · intro hwritten
    have hin : event ∈ (writtenEvents env files call).filter fun other =>
        other.symbol = symbol ∧ other.eventType = event.eventType :=
      List.mem_filter.2 ⟨hwritten, by simp [hsymbol]⟩
    exact le_antisymm hsub.length_le (List.length_pos_of_mem hin)

/-! ## Theses and events of one line -/

/-- A thesis has an id of its symbol, and texts of one line. -/
structure Kept (env : Env) (thesis : Thesis) : Prop where
  id : ∃ startedAt, thesis.thesisId = "thesis_" ++ env.thesisDigest thesis.symbol startedAt
  texts : ∀ text ∈ [thesis.symbol, thesis.side, thesis.primarySignalId, thesis.primaryTimeframe,
    thesis.primaryFamily, thesis.primaryStatus, thesis.createdAt, thesis.updatedAt],
    onOneLine text = true

/-- An event has the id of its fields, belongs to a thesis of its symbol, and stands on one line. -/
structure Issued (env : Env) (event : ThesisEvent) : Prop where
  id : event.eventId = eventId env event.payload
  thesis : ∃ startedAt, event.thesisId = "thesis_" ++ env.thesisDigest event.symbol startedAt
  oneLine : event.onOneLine = true

structure Sound (env : Env) (files : Files) : Prop where
  items : ∀ item ∈ files.items, Kept env item
  events : ∀ event ∈ files.eventLog, Issued env event

theorem onOneLine_empty : onOneLine "" = true := by decide

theorem onOneLine_append {a b : String} (ha : onOneLine a = true) (hb : onOneLine b = true) :
    onOneLine (a ++ b) = true := by
  simp only [onOneLine, String.toList_append, List.all_append, Bool.and_eq_true] at ha hb ⊢
  exact ⟨ha, hb⟩

theorem onOneLine_validationTier (row : Row) : onOneLine (validationTier row) = true := by
  rw [validationTier]
  split_ifs <;> decide

theorem Sound.previous (hsound : Sound env files) {previous : Thesis}
    (h : previousActive files symbol = some previous) :
    Kept env previous ∧ previous.symbol = symbol := by
  rw [previousActive] at h
  split_ifs at h
  obtain ⟨hitem, hkept⟩ := List.mem_filter.1 (List.mem_of_getLast? h)
  simp only [decide_eq_true_eq] at hkept
  exact ⟨hsound.items _ hitem, hkept.2⟩

theorem mem_groupOf {ledger : List Row} {row : Row} (h : row ∈ groupOf ledger symbol) :
    row ∈ ledger ∧ row.instrument = symbol := by
  obtain ⟨hactive, hsymbol⟩ := List.mem_filter.1 h
  exact ⟨(List.mem_filter.1 hactive).1, by simpa using hsymbol⟩

theorem chooseLeader_mem {group : List Row} {previous : Option Thesis} {leader : Row}
    (h : chooseLeader env group previous = some leader) : leader ∈ group := by
  rw [chooseLeader] at h
  cases hfind : group.find? (fun row => row.signalId = (previous.map Thesis.primarySignalId).getD "") with
  | none =>
    rw [hfind] at h
    exact List.argmax_mem h
  | some row =>
    rw [hfind] at h
    cases h
    exact List.mem_of_find?_eq_some hfind

theorem signalId_onOneLine {row : Row} (h : ∀ text ∈ row.texts env, onOneLine text = true) :
    onOneLine row.signalId = true := by
  rw [Row.signalId]
  split_ifs
  · exact h _ (by simp [Row.texts])
  · exact h _ (by simp [Row.texts])

/-- The machine follows a signal of the rows, or the one that it followed before. -/
theorem primarySignalId_foldl {P : String → Prop} {seen : List String} {rows : List Row}
    {loop : Loop} (hloop : P loop.fsm.primarySignalId) (hrows : ∀ row ∈ rows, P row.signalId) :
    P (rows.foldl (observe env seen) loop).fsm.primarySignalId := by
  induction rows generalizing loop with
  | nil => exact hloop
  | cons row rows ih =>
    refine ih ?_ fun other hother => hrows other (List.mem_cons_of_mem _ hother)
    rw [observe]
    split_ifs
    · exact hloop
    · exact hloop
    · exact hloop
    · rcases Fsm.decision_cases loop.fsm row with hd | hd | hd | hd | hd
      all_goals simp only [Fsm.accept, hd, Fsm.follow]
      all_goals first
        | exact hloop
        | exact hrows row List.mem_cons_self

theorem replay_primarySignalId {group : List Row} {previous : Option Thesis}
    (hprevious : ∀ thesis ∈ previous, Kept env thesis)
    (hgroup : ∀ row ∈ group, ∀ text ∈ row.texts env, onOneLine text = true) :
    onOneLine (replaySymbolFsm env group previous).primarySignalId = true := by
  have hrows : ∀ row ∈ sortOn (observationOrder env) group, onOneLine row.signalId = true :=
    fun row hrow => signalId_onOneLine (hgroup row (mem_sortOn.1 hrow))
  rw [replaySymbolFsm]
  split_ifs
  · exact primarySignalId_foldl (P := fun id => onOneLine id = true) onOneLine_empty hrows
  · refine primarySignalId_foldl (P := fun id => onOneLine id = true) ?_ hrows
    cases previous with
    | none => exact onOneLine_empty
    | some thesis => exact (hprevious thesis rfl).texts _ (by simp [restored, Thesis.fsm])

theorem firstCreated_onOneLine {group : List Row}
    (hgroup : ∀ row ∈ group, ∀ text ∈ row.texts env, onOneLine text = true) :
    onOneLine (firstCreated env group) = true := by
  rw [firstCreated]
  cases hfirst : (group.map (createdSortKey env)).argmin id with
  | none => decide
  | some created =>
    obtain ⟨row, hrow, rfl⟩ := List.mem_map.1 (List.argmin_mem hfirst)
    exact hgroup row hrow _ (by simp [Row.texts])

section
variable (hsound : Sound env files) (hline : call.OneLine env)
include hsound hline

theorem activeThesis_kept {thesis : Thesis} (h : activeThesis env files call symbol = some thesis) :
    Kept env thesis ∧ thesis.symbol = symbol := by
  rw [activeThesis, Option.map_eq_some_iff] at h
  obtain ⟨leader, hchosen, rfl⟩ := h
  have hleader := chooseLeader_mem hchosen
  have hgroup : ∀ row ∈ groupOf call.ledger symbol, ∀ text ∈ row.texts env, onOneLine text = true :=
    fun row hrow => hline.rows row (mem_groupOf hrow).1
  have hprevious : ∀ previous ∈ previousActive files symbol,
      Kept env previous ∧ previous.symbol = symbol := fun previous h => hsound.previous h
  generalize previousActive files symbol = previous at *
  have hsymbol : leader.instrument = symbol := (mem_groupOf hleader).2
  have hreplayed := replay_primarySignalId (fun thesis hthesis => (hprevious thesis hthesis).1) hgroup
  set fsm := replaySymbolFsm env (groupOf call.ledger symbol) previous
  have hfsmLeader : ((groupOf call.ledger symbol).find? fun row =>
      row.signalId = fsm.primarySignalId).getD leader ∈ groupOf call.ledger symbol := by
    cases hfind : (groupOf call.ledger symbol).find? fun row => row.signalId = fsm.primarySignalId with
    | none => exact hleader
    | some row => exact List.mem_of_find?_eq_some hfind
  have htexts := hgroup _ hfsmLeader
  simp only [Row.texts, List.forall_mem_cons] at htexts
  obtain ⟨-, -, -, -, hside, htimeframe, hstatus, hfamily, -, -, -⟩ := htexts
  have hinstrument : onOneLine leader.instrument = true := by
    rw [Row.instrument]
    split_ifs
    · exact hgroup leader hleader _ (by simp [Row.texts])
    · exact hgroup leader hleader _ (by simp [Row.texts])
  refine ⟨⟨?_, ?_⟩, hsymbol⟩
  · simp only [thesisFromLeader]
    by_cases hid : (previous.map Thesis.thesisId).getD "" = ""
    · rw [if_neg (not_not.2 hid)]
      exact ⟨_, rfl⟩
    · rw [if_pos hid]
      cases previous with
      | none => exact absurd rfl hid
      | some old =>
        obtain ⟨⟨startedAt, hold⟩, -⟩ := (hprevious old rfl).1
        rw [hsymbol, ← (hprevious old rfl).2]
        exact ⟨startedAt, hold⟩
  · simp only [thesisFromLeader, List.forall_mem_cons]
    refine ⟨hinstrument, hside, ?_, htimeframe, hfamily, hstatus, ?_, hline.now symbol, by simp⟩
    · split_ifs
      · exact hreplayed
      · exact signalId_onOneLine (hgroup leader hleader)
    · split_ifs with hstored
      · cases previous with
        | none => exact absurd rfl hstored
        | some old => exact (hprevious old rfl).1.texts _ (by simp)
      · exact firstCreated_onOneLine hgroup

omit hsound in
theorem closeResult_onOneLine (signalId : String) :
    onOneLine (closeResult (rowBySignal call.ledger signalId)) = true := by
  cases hrow : rowBySignal call.ledger signalId with
  | none => decide
  | some row =>
    rw [closeResult]
    have hmem := (List.mem_filter.1 (List.mem_of_getLast? hrow)).1
    split_ifs
    · exact hline.rows row hmem _ (by simp [Row.texts])
    · exact hline.rows row hmem _ (by simp [Row.texts])
    · decide

theorem closedThesis_kept {previous : Thesis} (h : previousActive files symbol = some previous) :
    Kept env (closedThesis call symbol previous) := by
  obtain ⟨⟨hid, htexts⟩, rfl⟩ := hsound.previous h
  refine ⟨hid, ?_⟩
  simp only [closedThesis, List.forall_mem_cons] at htexts ⊢
  obtain ⟨hsymbol, hside, hsignal, htimeframe, hfamily, -, hcreated, -, -⟩ := htexts
  refine ⟨hsymbol, hside, hsignal, htimeframe, hfamily, ?_, hcreated, hline.now _, by simp⟩
  cases hrow : rowBySignal call.ledger previous.primarySignalId with
  | none => decide
  | some row =>
    have hmem := (List.mem_filter.1 (List.mem_of_getLast? hrow)).1
    simp only [Option.map_some, Option.getD_some]
    split_ifs
    · exact hline.rows row hmem _ (by simp [Row.texts])
    · decide

end

/-- The event of a kept thesis as a whole. -/
theorem Kept.issued {thesis : Thesis} (h : Kept env thesis) {action : String} {reasons : List String}
    {ts result : String} {net : Option ℚ} (hreasons : ∀ text ∈ reasons, onOneLine text = true)
    (hts : onOneLine ts = true) (hresult : onOneLine result = true)
    (hid : { scenarioEvent env thesis.symbol thesis payload type action reasons ts with
      terminalResult := result, terminalNetPct := net : ThesisEvent}.payload = payload) :
    Issued env { scenarioEvent env thesis.symbol thesis payload type action reasons ts with
      terminalResult := result, terminalNetPct := net } := by
  refine ⟨congrArg (eventId env) hid.symm, h.id, ?_⟩
  have htexts := h.texts
  simp only [List.forall_mem_cons] at htexts
  obtain ⟨hsymbol, hside, hsignal, htimeframe, hfamily, hstatus, -, -, -⟩ := htexts
  simp only [ThesisEvent.onOneLine, ThesisEvent.texts, scenarioEvent, List.all_append, List.all_cons,
    List.all_nil, hsymbol, hside, hsignal, htimeframe, hfamily, hstatus, hts, hresult, Bool.and_true,
    Bool.true_and]
  exact List.all_eq_true.2 hreasons

theorem signalEvent_payload (env : Env) (symbol : String) (thesis : Thesis) (row : Row) :
    (signalEvent env symbol thesis row).payload = observationPayload thesis row ∧
      (signalEvent env symbol thesis row).eventId = eventId env (observationPayload thesis row) := by
  refine ⟨?_, rfl⟩
  have htype := classifySignal_type thesis row
  rw [ThesisEvent.payload, observationPayload]
  simp only [signalEvent]
  generalize classifySignal thesis row = classified at *
  obtain ⟨type, action, reasons⟩ := classified
  cases type <;> first | rfl | cases htype

theorem transitionEvent_payload (env : Env) (symbol : String) (previous : Option Thesis)
    (thesis : Thesis) :
    (transitionEvent env symbol previous thesis).map ThesisEvent.payload =
      transitionPayload previous thesis := by
  cases previous with
  | none => rfl
  | some old =>
    rw [transitionEvent, transitionPayload]
    split_ifs <;> rfl

/-- What there is to log for a symbol is what its events are made of. -/
theorem eventsOf_payloads : ((eventsOf env files call symbol).map ThesisEvent.payload).Perm
    (payloadsOf env files call symbol) := by
  rw [eventsOf, payloadsOf]
  by_cases hmem : symbol ∈ activeSymbols call.ledger
  · rw [if_pos hmem, if_pos hmem, symbolEvents]
    cases activeThesis env files call symbol with
    | none => exact List.Perm.refl _
    | some thesis =>
      have hpayload : ∀ row, ThesisEvent.payload (signalEvent env symbol thesis row) =
          observationPayload thesis row := fun row => (signalEvent_payload env symbol thesis row).1
      simp only [List.map_append, ← transitionEvent_payload env symbol,
        Option.toList_map, List.map_map, Function.comp_def, hpayload]
      exact ((sortOn_perm _ _).map _).append_left _
  · rw [if_neg hmem, if_neg hmem]
    cases previousActive files symbol with
    | none => exact List.Perm.refl _
    | some previous => exact List.Perm.refl _

theorem newEvents_eq : newEvents env files call =
    (callSymbols files call).flatMap (eventsOf env files call) := by
  rw [newEvents, callSymbols, List.flatMap_append]
  refine congrArg₂ _ ?_ ?_
  · refine List.flatMap_congr fun symbol hsymbol => ?_
    rw [eventsOf, if_pos hsymbol]
  · refine List.flatMap_congr fun symbol hsymbol => ?_
    have hnot : symbol ∉ activeSymbols call.ledger := by
      simpa using (List.mem_filter.1 hsymbol).2
    rw [eventsOf, if_neg hnot]

/-- The event of a symbol's transition is the first of its events. -/
theorem eventsOf_change (hchange : changeEvent env files call symbol = some event) :
    ∃ rest, eventsOf env files call symbol = event :: rest := by
  rw [changeEvent] at hchange
  rw [eventsOf]
  by_cases hmem : symbol ∈ activeSymbols call.ledger
  · rw [if_pos hmem, Option.bind_eq_some_iff] at hchange
    obtain ⟨thesis, hthesis, htransition⟩ := hchange
    rw [if_pos hmem, symbolEvents, hthesis]
    simp only [htransition, Option.toList_some, List.singleton_append]
    exact ⟨_, rfl⟩
  · rw [if_neg hmem] at hchange
    rw [if_neg hmem, hchange]
    exact ⟨[], rfl⟩

theorem mem_callSymbols_of_change (hchange : changeEvent env files call symbol = some event) :
    symbol ∈ callSymbols files call := by
  rw [callSymbols, List.mem_append]
  rw [changeEvent] at hchange
  by_cases hmem : symbol ∈ activeSymbols call.ledger
  · exact Or.inl hmem
  · rw [if_neg hmem, Option.map_eq_some_iff] at hchange
    obtain ⟨previous, hprevious, -⟩ := hchange
    exact Or.inr (List.mem_filter.2
      ⟨mem_previousSymbols.2 ⟨previous, hprevious⟩, by simpa using hmem⟩)

section
variable (hsound : Sound env files) (hline : call.OneLine env)
include hsound hline

theorem symbolEvents_issued (h : event ∈ symbolEvents env files call symbol) :
    Issued env event := by
  rw [symbolEvents] at h
  cases hthesis : activeThesis env files call symbol with
  | none => simp [hthesis] at h
  | some thesis =>
    obtain ⟨hkept, hsymbol⟩ := activeThesis_kept hsound hline hthesis
    have htexts := hkept.texts
    simp only [List.forall_mem_cons] at htexts
    obtain ⟨hsymbolLine, hside, -, htimeframe, -, -, hcreated, hupdated, -⟩ := htexts
    simp only [hthesis, List.mem_append, Option.mem_toList, List.mem_map] at h
    rcases h with h | ⟨row, hrow, rfl⟩
    · subst hsymbol
      cases hprevious : previousActive files thesis.symbol with
      | none =>
        rw [hprevious] at h
        cases h
        exact hkept.issued (by decide) hcreated onOneLine_empty rfl
      | some old =>
        rw [hprevious, transitionEvent] at h
        split_ifs at h with hne hprimary
        · cases h
          exact hkept.issued (by decide) hupdated onOneLine_empty rfl
        · cases h
          exact hkept.issued (by decide) hupdated onOneLine_empty rfl
    · have hlines := hline.rows row (mem_groupOf (mem_sortOn.1 hrow)).1
      have hid := signalId_onOneLine hlines
      simp only [Row.texts, List.forall_mem_cons] at hlines
      obtain ⟨-, -, -, -, hrowSide, hrowTimeframe, hrowStatus, hrowFamily, -, hrowCreated, -⟩ := hlines
      obtain ⟨hpayload, heventId⟩ := signalEvent_payload env symbol thesis row
      refine ⟨heventId.trans (congrArg _ hpayload.symm), hsymbol ▸ hkept.id, ?_⟩
      have hreasons : ∀ text ∈ (classifySignal thesis row).2.2, onOneLine text = true := by
        have hbase : ∀ text ∈ ["thesis_side:" ++ thesis.side, "signal_side:" ++ row.side,
            "thesis_tf:" ++ thesis.primaryTimeframe, "signal_tf:" ++ row.timeframe,
            "validation:" ++ validationTier row], onOneLine text = true := by
          simp only [List.forall_mem_cons]
          exact ⟨onOneLine_append (by decide) hside, onOneLine_append (by decide) hrowSide,
            onOneLine_append (by decide) htimeframe, onOneLine_append (by decide) hrowTimeframe,
            onOneLine_append (by decide) (onOneLine_validationTier row), by simp⟩
        have hlast : ∀ last : String, onOneLine last = true → ∀ text ∈
            ["thesis_side:" ++ thesis.side, "signal_side:" ++ row.side,
              "thesis_tf:" ++ thesis.primaryTimeframe, "signal_tf:" ++ row.timeframe,
              "validation:" ++ validationTier row] ++ [last], onOneLine text = true := by
          intro last hone text htext
          rcases List.mem_append.1 htext with htext | htext
          · exact hbase text htext
          · exact List.mem_singleton.1 htext ▸ hone
        simp only [classifySignal]
        split_ifs
        all_goals exact hlast _ (by decide)
      simp only [ThesisEvent.onOneLine, ThesisEvent.texts, signalEvent, List.all_append, List.all_cons,
        List.all_nil, ← hsymbol, hsymbolLine, hid, hrowSide, hrowTimeframe, hrowStatus, hrowFamily,
        hrowCreated, onOneLine_empty, Bool.and_true, Bool.true_and]
      exact List.all_eq_true.2 hreasons

theorem newEvents_issued (h : event ∈ newEvents env files call) : Issued env event := by
  rw [newEvents, List.mem_append, List.mem_flatMap, List.mem_flatMap] at h
  rcases h with ⟨symbol, -, h⟩ | ⟨symbol, -, h⟩
  · exact symbolEvents_issued hsound hline h
  · simp only [Option.mem_toList, Option.map_eq_some_iff] at h
    obtain ⟨previous, hprevious, rfl⟩ := h
    have hkept := closedThesis_kept hsound hline hprevious
    have hresult := closeResult_onOneLine hline previous.primarySignalId
    exact hkept.issued (by simpa using ⟨by decide, onOneLine_append (by decide) hresult⟩)
      (hline.now symbol) hresult rfl

theorem newTheses_kept {thesis : Thesis} (h : thesis ∈ newTheses env files call) :
    Kept env thesis := by
  rw [newTheses, List.mem_append, List.mem_filterMap, List.mem_filterMap] at h
  rcases h with ⟨symbol, -, h⟩ | ⟨symbol, -, h⟩
  · exact (activeThesis_kept hsound hline h).1
  · obtain ⟨previous, hprevious, rfl⟩ := Option.map_eq_some_iff.1 h
    exact closedThesis_kept hsound hline hprevious

theorem Sound.write : Sound env (writeTradeThesisSupervisor env files call) := by
  refine ⟨fun item hitem => newTheses_kept hsound hline hitem, fun event hevent => ?_⟩
  rcases List.mem_append.1 hevent with h | h
  · exact hsound.events event h
  · exact newEvents_issued hsound hline (writtenEvents_sublist.subset h)

end

/-! ## Every transition once -/

/-- An item is among the last ones of a list that has it once, if not too many follow it. -/
theorem mem_drop_iff {α : Type} {a : α} {before after : List α} {n : ℕ} (hafter : a ∉ after) :
    a ∈ (before ++ a :: after).drop ((before ++ a :: after).length - n) ↔ after.length + 1 ≤ n := by
  have hlength : (before ++ a :: after).length = before.length + (after.length + 1) := by simp
  rw [hlength]
  by_cases hle : after.length + 1 ≤ n
  · refine iff_of_true ?_ hle
    rw [List.drop_append_of_le_length (by omega)]
    exact List.mem_append_right _ List.mem_cons_self
  · refine iff_of_false (fun hmem => ?_) hle
    have hskip : before.length + (after.length + 1) - n = before.length + (after.length - n + 1) := by
      omega
    rw [hskip, List.drop_append, List.drop_of_length_le (by omega), List.nil_append,
      Nat.add_sub_cancel_left, List.drop_succ_cons] at hmem
    exact hafter (List.mem_of_mem_drop hmem)

section
variable (henv : env.CollisionFree) (hsound : Sound env files) (hline : call.OneLine env)
include henv

/-- The id of an event is its payload. -/
theorem Issued.eventId_inj {other : ThesisEvent} (h : Issued env event) (h' : Issued env other) :
    other.eventId = event.eventId ↔ other.payload = event.payload := by
  rw [h.id, h'.id, eventId, eventId, String.append_right_inj, henv.events.eq_iff]

omit henv in
theorem payload_eq {other : ThesisEvent} (hscenario : event.eventType.isScenario = true)
    (h : other.payload = event.payload) :
    other.eventType = event.eventType ∧ other.thesisId = event.thesisId := by
  revert hscenario h
  rw [ThesisEvent.payload, ThesisEvent.payload]
  cases event.eventType <;> cases other.eventType <;> simp [EventType.isScenario]
  all_goals intros; assumption

include hsound hline

/-- No other event of the call has the id of a transition. -/
theorem eq_of_eventId (hchange : changeEvent env files call symbol = some event)
    {other : ThesisEvent} (hother : other ∈ newEvents env files call)
    (hid : other.eventId = event.eventId) : other = event := by
  obtain ⟨hnew, hsymbol, hscenario⟩ := mem_newEvents_of_change hchange
  have hissued := newEvents_issued hsound hline hnew
  have hissued' := newEvents_issued hsound hline hother
  obtain ⟨htype, hthesis⟩ := payload_eq hscenario ((hissued.eventId_inj henv hissued').1 hid)
  obtain ⟨startedAt, h⟩ := hissued.thesis
  obtain ⟨startedAt', h'⟩ := hissued'.thesis
  rw [h, h', String.append_right_inj] at hthesis
  have hsame : other.symbol = symbol := (henv.theses _ _ _ _ hthesis).trans hsymbol
  have hin : other ∈ (newEvents env files call).filter
      fun event => event.symbol = symbol ∧ event.eventType.isScenario :=
    List.mem_filter.2 ⟨hother, by simp [hsame, htype, hscenario]⟩
  rw [filter_newEvents, hchange] at hin
  exact List.mem_singleton.1 hin

theorem mem_knownIds (hevent : event ∈ newEvents env files call) :
    event.eventId ∈ knownIds files ↔ logged files event.payload = true := by
  have hissued := newEvents_issued hsound hline hevent
  have hread : readEvents files.eventLog = files.eventLog :=
    List.filter_eq_self.2 fun other hother => (hsound.events other hother).oneLine
  rw [knownIds, hread, List.mem_map, logged, List.any_eq_true]
  refine exists_congr fun other => and_congr_right fun hother => ?_
  rw [hissued.eventId_inj henv (hsound.events other hother), decide_eq_true_eq]

theorem appendedEvents_eq : appendedEvents env files call =
    (newEvents env files call).filter fun event => !logged files event.payload := by
  refine List.filter_congr fun event hevent => ?_
  simp only [mem_knownIds henv hsound hline hevent]
  cases logged files event.payload <;> rfl

omit henv hsound hline in
/-- How much there is to log from a symbol on, counted over its events. -/
theorem unloggedFrom_eq {after : List String}
    (hafter : (callSymbols files call).dropWhile (· ≠ symbol) = symbol :: after) :
    unloggedFrom env files call symbol = ((symbol :: after).flatMap (eventsOf env files call)).countP
      fun event => !logged files event.payload := by
  rw [unloggedFrom, hafter, List.countP_flatMap]
  refine congrArg List.sum (List.map_congr_left fun other _ => ?_)
  rw [← eventsOf_payloads.countP_eq, List.countP_map]
  rfl

/-- The event of a transition is written exactly if the log has no line for it, and not too much comes
from it on. -/
theorem mem_writtenEvents_iff (hchange : changeEvent env files call symbol = some event) :
    event ∈ writtenEvents env files call ↔
      logged files event.payload = false ∧ unloggedFrom env files call symbol ≤ tailLimit := by
  obtain ⟨hnew, hsymbol, hscenario⟩ := mem_newEvents_of_change hchange
  rw [writtenEvents_eq, mem_unwritten, mem_knownIds henv hsound hline hnew, Bool.not_eq_true]
  refine (and_iff_right (eventId_of_mem_newEvents hnew)).trans (and_congr_right fun hfresh => ?_)
  -- the events of the call in front of the symbol's, and those behind its first one
  obtain ⟨rest, hrest⟩ := eventsOf_change hchange
  obtain ⟨before, after, hsymbols, hnot⟩ :=
    List.eq_append_cons_of_mem (mem_callSymbols_of_change hchange)
  have hafter : (callSymbols files call).dropWhile (· ≠ symbol) = symbol :: after := by
    rw [hsymbols, List.dropWhile_append_of_pos fun other hother => by
      simpa using ne_of_mem_of_not_mem hother hnot, List.dropWhile_cons_of_neg (by simp)]
  obtain ⟨front, back, hfront, hback⟩ : ∃ front back,
      newEvents env files call = front ++ event :: back ∧
        (symbol :: after).flatMap (eventsOf env files call) = event :: back := by
    refine ⟨before.flatMap (eventsOf env files call),
      rest ++ after.flatMap (eventsOf env files call), ?_, ?_⟩
    · rw [newEvents_eq, hsymbols, List.flatMap_append, List.flatMap_cons, hrest, List.cons_append]
    · rw [List.flatMap_cons, hrest, List.cons_append]
  have hfilter := filter_newEvents env files call symbol
  rw [hchange, hfront, List.filter_append, List.filter_cons_of_pos (by simp [hsymbol, hscenario]),
    Option.toList_some] at hfilter
  have hlengths := congrArg List.length hfilter
  simp only [List.length_append, List.length_cons, List.length_nil] at hlengths
  have honce : ∀ list : List ThesisEvent, (list.filter fun event =>
      event.symbol = symbol ∧ event.eventType.isScenario).length = 0 → event ∉ list := by
    intro list hempty hmem
    have hin : event ∈ list.filter fun event =>
        event.symbol = symbol ∧ event.eventType.isScenario :=
      List.mem_filter.2 ⟨hmem, by simp [hsymbol, hscenario]⟩
    rw [List.length_eq_zero_iff.1 hempty] at hin
    exact List.not_mem_nil hin
  have hlast : (lastUnlogged env files call).find? (fun other => other.eventId = event.eventId) =
      some event ↔ event ∈ lastUnlogged env files call := by
    refine ⟨List.mem_of_find?_eq_some, fun hmem => ?_⟩
    cases hfind : (lastUnlogged env files call).find? fun other => other.eventId = event.eventId with
    | none => exact absurd (List.find?_eq_none.1 hfind event hmem) (by simp)
    | some other =>
      have hother := List.mem_of_find?_eq_some hfind
      rw [lastUnlogged, appendedEvents] at hother
      have hin := (List.mem_filter.1 (List.mem_of_mem_drop hother)).1
      rw [eq_of_eventId henv hsound hline hchange hin (by simpa using List.find?_some hfind)]
  have hunlogged : appendedEvents env files call =
      (front.filter fun event => !logged files event.payload) ++
        event :: back.filter fun event => !logged files event.payload := by
    rw [appendedEvents_eq henv hsound hline, hfront, List.filter_append,
      List.filter_cons_of_pos (by simp [hfresh])]
  rw [hlast, lastUnlogged, hunlogged,
    mem_drop_iff (fun hmem => honce back (by omega) (List.mem_filter.1 hmem).1),
    unloggedFrom_eq hafter, hback, List.countP_cons_of_pos (by simp [hfresh]),
    List.countP_eq_length_filter]

/-- A call logs its transitions exactly if it is loggable. -/
theorem logsEach_iff : LogsEach env files call ↔ Loggable env files call := by
  constructor
  · intro h
    refine ⟨fun symbol type payload hchanges => ?_, fun symbol type payload hchanges => ?_⟩
    all_goals
      have hone := h symbol type payload hchanges
      obtain ⟨event, hchange, rfl, rfl⟩ := changes_iff.1 hchanges
      rw [countP_written hchange, mem_writtenEvents_iff henv hsound hline hchange] at hone
    · exact hone.1
    · exact hone.2
  · intro h symbol type payload hchanges
    obtain ⟨event, hchange, rfl, rfl⟩ := changes_iff.1 hchanges
    rw [countP_written hchange, mem_writtenEvents_iff henv hsound hline hchange]
    exact ⟨h.new _ _ _ hchanges, h.room _ _ _ hchanges⟩

/-- No two lines of the log have the same id. -/
def OneLineEach (files : Files) : Prop := (files.eventLog.map ThesisEvent.eventId).Nodup

omit henv hline in
theorem OneLineEach.write (h : OneLineEach files) :
    OneLineEach (writeTradeThesisSupervisor env files call) := by
  have hread : readEvents files.eventLog = files.eventLog :=
    List.filter_eq_self.2 fun other hother => (hsound.events other hother).oneLine
  change ((files.eventLog ++ writtenEvents env files call).map ThesisEvent.eventId).Nodup
  rw [List.map_append, writtenEvents, knownIds, hread]
  refine h.append nodup_unwritten fun id hold hnew => ?_
  obtain ⟨event, hevent, rfl⟩ := List.mem_map.1 hnew
  exact (mem_unwritten.1 hevent).2.1 hold

end

theorem runCalls_concat (calls : List Call) (call : Call) :
    runCalls env (calls ++ [call]) = writeTradeThesisSupervisor env (runCalls env calls) call := by
  rw [runCalls, List.foldl_append]
  rfl

theorem sound_run {calls : List Call} (hline : ∀ call ∈ calls, call.OneLine env) :
    Sound env (runCalls env calls) ∧ OneLineEach (runCalls env calls) := by
  induction calls using List.reverseRecOn with
  | nil => exact ⟨⟨by simp [runCalls], by simp [runCalls]⟩, List.nodup_nil⟩
  | append_singleton calls call ih =>
    obtain ⟨hsound, heach⟩ := ih fun other hother => hline other (List.mem_append_left _ hother)
    have hcall := hline call (List.mem_append_right _ (List.mem_singleton_self call))
    rw [runCalls_concat]
    exact ⟨hsound.write hcall, heach.write hsound⟩

/-- In every call of the run each transition is logged with exactly one line, and no line of the log is
there twice. -/
def EachTransitionLogged (env : Env) (calls : List Call) : Prop :=
  (∀ before call after, calls = before ++ call :: after → LogsEach env (runCalls env before) call) ∧
    (runCalls env calls).eventLog.Nodup

/-- A run over texts of one line logs each of its transitions once exactly if all its calls are
loggable in the state before them. -/
theorem transitions_logged_iff (env : Env) (calls : List Call) (henv : env.CollisionFree)
    (hline : ∀ call ∈ calls, call.OneLine env) :
    EachTransitionLogged env calls ↔
      ∀ before call after, calls = before ++ call :: after →
        Loggable env (runCalls env before) call := by
  have hcall : ∀ before call after, calls = before ++ call :: after →
      (LogsEach env (runCalls env before) call ↔ Loggable env (runCalls env before) call) := by
    rintro before call after rfl
    have hbefore := sound_run fun other hother => hline other (List.mem_append_left _ hother)
    exact logsEach_iff henv hbefore.1
      (hline call (List.mem_append_right _ List.mem_cons_self))
  constructor
  · rintro ⟨hlogs, -⟩ before call after hcalls
    exact (hcall before call after hcalls).1 (hlogs before call after hcalls)
  · intro hloggable
    refine ⟨fun before call after hcalls => ?_, (sound_run hline).2.of_map _⟩
    exact (hcall before call after hcalls).2 (hloggable before call after hcalls)

/-! ## A thesis that is opened, changed and closed -/

/-- A text with a mark in front of each character and an end of its own. -/
def marked (text : String) : List Char := text.toList.flatMap (fun c => ['.', c]) ++ [';']

theorem marked_inj {a b : String} {rest rest' : List Char}
    (h : marked a ++ rest = marked b ++ rest') : a = b ∧ rest = rest' := by
  have hchars : ∀ cs ds : List Char,
      cs.flatMap (fun c => ['.', c]) ++ ';' :: rest = ds.flatMap (fun c => ['.', c]) ++ ';' :: rest' →
        cs = ds ∧ rest = rest' := by
    intro cs
    induction cs with
    | nil =>
      intro ds
      cases ds <;> simp
    | cons c cs ih =>
      intro ds
      cases ds with
      | nil => simp
      | cons d ds =>
        simp only [List.flatMap_cons, List.cons_append, List.nil_append, List.cons.injEq, true_and]
        rintro ⟨rfl, heq⟩
        exact ⟨⟨rfl, (ih ds heq).1⟩, (ih ds heq).2⟩
  obtain ⟨hsame, hrest⟩ := hchars a.toList b.toList (by simpa [marked] using h)
  exact ⟨String.toList_inj.1 hsame, hrest⟩

/-- Digests from which their texts can be read back. -/
def markedEnv : Env where
  isoformat seconds := toString seconds
  thesisDigest symbol startedAt := String.ofList (marked symbol ++ startedAt.toList)
  stateDigest := plainEnv.stateDigest
  eventDigest
    | .opened thesisId => String.ofList ('o' :: marked thesisId)
    | .updated thesisId stateHash => String.ofList ('u' :: (marked thesisId ++ marked stateHash))
    | .closed thesisId result => String.ofList ('c' :: (marked thesisId ++ marked result))
    | .signal thesisId signalId eventType action =>
        String.ofList ('s' :: (marked thesisId ++ (marked signalId ++ (marked eventType ++ marked action))))

theorem markedEnv_collisionFree : markedEnv.CollisionFree := by
  have hend : ∀ {a b : String}, marked a = marked b → a = b := fun {a b} h =>
    (@marked_inj a b [] [] (by rw [h])).1
  refine ⟨fun payload payload' h => ?_, fun symbol startedAt symbol' startedAt' h => ?_⟩
  · cases payload <;> cases payload'
    all_goals
      simp only [markedEnv, String.ofList_inj, List.cons.injEq, true_and] at h
      try exact absurd h.1 (by decide)
    · rw [hend h]
    · obtain ⟨hthesis, hrest⟩ := marked_inj h
      rw [hthesis, hend hrest]
    · obtain ⟨hthesis, hrest⟩ := marked_inj h
      rw [hthesis, hend hrest]
    · obtain ⟨hthesis, h⟩ := marked_inj h
      obtain ⟨hsignal, h⟩ := marked_inj h
      obtain ⟨htype, h⟩ := marked_inj h
      rw [hthesis, hsignal, htype, hend h]
  · rw [markedEnv] at h
    exact (marked_inj (String.ofList_inj.1 h)).1

/-- It is enough to look at the symbols of the call. -/
theorem loggable_of_symbols (h : ∀ symbol ∈ callSymbols files call,
    ∀ event ∈ changeEvent env files call symbol, logged files event.payload = false ∧
      unloggedFrom env files call symbol ≤ tailLimit) : Loggable env files call := by
  refine ⟨fun symbol type payload hchanges => ?_, fun symbol type payload hchanges => ?_⟩
  all_goals obtain ⟨event, hchange, -, rfl⟩ := changes_iff.1 hchanges
  · exact (h symbol (mem_callSymbols_of_change hchange) event hchange).1
  · exact (h symbol (mem_callSymbols_of_change hchange) event hchange).2

/-- A call at which the only signal has the given status. -/
def statusCall (status ts : String) : Call where
  ledger := [{ earlyRow "" with status := status }]
  now _ := ts

theorem statusCall_oneLine {status ts : String} (hstatus : onOneLine status = true)
    (hts : onOneLine ts = true) : (statusCall status ts).OneLine markedEnv := by
  refine ⟨fun row hrow => ?_, fun _ => hts⟩
  obtain rfl := List.mem_singleton.1 hrow
  simp only [Row.texts, List.forall_mem_cons]
  have hcreated : onOneLine "2026-07-08T12:00:00+00:00" = true := by decide
  exact ⟨by decide, by decide, by decide, by decide, by decide, by decide, hstatus, by decide,
    by decide, hcreated, by simp⟩

/-- A signal is armed, opened and closed. -/
theorem closing_transitions_logged :
    EachTransitionLogged markedEnv
      [statusCall "armed" "2026-07-08T12:10:00+00:00",
        statusCall "opened_paper" "2026-07-08T12:20:00+00:00",
        statusCall "closed_paper" "2026-07-08T12:30:00+00:00"] := by
  refine (transitions_logged_iff markedEnv _ markedEnv_collisionFree ?_).2 ?_
  · simp only [List.forall_mem_cons]
    exact ⟨statusCall_oneLine (by decide) (by decide), statusCall_oneLine (by decide) (by decide),
      statusCall_oneLine (by decide) (by decide), by simp⟩
  · intro before call after hcalls
    refine loggable_of_symbols ?_
    rcases before with _ | ⟨first, _ | ⟨second, _ | ⟨third, before⟩⟩⟩
    all_goals simp only [List.cons_append, List.nil_append, List.cons.injEq] at hcalls
    · obtain ⟨rfl, -⟩ := hcalls
      decide +kernel
    · obtain ⟨rfl, rfl, -⟩ := hcalls
      decide +kernel
    · obtain ⟨rfl, rfl, rfl, -⟩ := hcalls
      decide +kernel
    · simp at hcalls

def alternatingCalls : List Call :=
  [statusCall "armed" "2026-07-08T12:10:00+00:00", statusCall "opened_paper" "2026-07-08T12:20:00+00:00",
    statusCall "armed" "2026-07-08T12:30:00+00:00"]

/-- The signal is armed, opened, armed and opened again: the second opening changes the thesis, and no
event is logged for it. -/
theorem returning_state_is_not_logged :
    ¬EachTransitionLogged plainEnv
      (alternatingCalls ++ [statusCall "opened_paper" "2026-07-08T12:40:00+00:00"]) := by
  rintro ⟨hlogs, -⟩
  let files := runCalls plainEnv alternatingCalls
  let call := statusCall "opened_paper" "2026-07-08T12:40:00+00:00"
  have hlast : LogsEach plainEnv files call := hlogs alternatingCalls call [] rfl
  have hchange : (changeEvent plainEnv files call "KAITO-USDT-SWAP").map ThesisEvent.eventType =
      some .scenarioUpdated := by decide +kernel
  obtain ⟨event, hevent, htype⟩ := Option.map_eq_some_iff.1 hchange
  have hcount := hlast _ _ _ (changes_iff.2 ⟨event, hevent, htype, rfl⟩)
  have hnone : (writtenEvents plainEnv files call).countP (fun event =>
      event.symbol = "KAITO-USDT-SWAP" ∧ event.eventType = .scenarioUpdated) = 0 := by decide +kernel
  rw [hnone] at hcount
  cases hcount

end ResearchLab.TradeThesis
