import Mathlib
import ResearchLab.Foundation.Machine
import ResearchLab.ProjectBrain.Store

/-!
# Rebuilding the index from the log

Every event line that was written whole, without a line boundary in its texts and without a
value that the check of the rebuild rejects, is read back as its event. The rebuilt index has
the first event of every id.
-/
namespace ResearchLab.ProjectBrain

open Foundation

/-! ## An event is read back from its line -/

theorem texts_plain (l : List String) : (texts l).Plain := by
  induction l with
  | nil => exact trivial
  | cons s l ih => exact ⟨trivial, ih⟩

theorem TextDict.json_plain (d : TextDict) : d.json.Plain := by
  have hmembers : ∀ l : List (String × String),
      Json.PlainMembers (l.map fun e => (e.1, (.str e.2 : Value))) := by
    intro l
    induction l with
    | nil => exact trivial
    | cons e l ih => exact ⟨trivial, ih⟩
  refine ⟨?_, hmembers d.entries⟩
  rw [List.map_map]
  exact d.ascending

theorem MemoryRecord.toDict_plain (r : MemoryRecord) : r.toDict.Plain := by
  constructor
  · simp only [List.map_cons, List.map_nil]
    decide
  · simp [Json.PlainMembers, Json.Plain, texts_plain, TextDict.json_plain]

theorem Event.row_plain (e : Event) : e.row.Plain := by
  cases e with
  | record r =>
    constructor
    · simp only [List.map_cons, List.map_nil]
      decide
    · exact ⟨trivial, trivial, r.toDict_plain, trivial⟩
  | causalLink l =>
    constructor
    · simp only [List.map_cons, List.map_nil]
      decide
    · simp [Json.PlainMembers, Json.Plain, texts_plain]

theorem readable_separated : readable.Separated where
  item := ⟨[' '], rfl, by simp [Json.isBlank]⟩
  key := ⟨[' '], rfl, by simp [Json.isBlank]⟩

theorem plain_separated : (Json.plain (id : List Char → List Char)).Separated where
  item := ⟨[' '], rfl, by simp [Json.isBlank]⟩
  key := ⟨[' '], rfl, by simp [Json.isBlank]⟩

theorem loads_dumps {fmt : Json.Format (List Char)} (hfmt : fmt.Separated) {v : Value}
    (hv : v.Plain) : loads (v.dumps fmt) = .ok v := by
  rw [loads, Json.loads_dumps id hfmt hv]

theorem mapM_text (l : List String) :
    (l.map (Json.str (φ := List Char))).mapM Json.text? = some l := by
  induction l with
  | nil => rfl
  | cons s l ih => simp [Json.text?, ih]

theorem textsAt_texts {row : Value} {key : String} {l : List String}
    (h : row.member? key = some (texts l)) : textsAt row key = .ok l := by
  simp only [textsAt, h, texts, mapM_text]

theorem textDictAt_json {row : Value} {key : String} {d : TextDict}
    (h : row.member? key = some d.json) : textDictAt row key = .ok d := by
  have hentries : (d.entries.map fun e => (e.1, (Json.str e.2 : Value))).mapM
      (fun m => m.2.text?.map (m.1, ·)) = some d.entries := by
    induction d.entries with
    | nil => rfl
    | cons e l ih =>
      rw [List.map_cons, List.mapM_cons, ih]
      rfl
  simp only [textDictAt, h, TextDict.json, hentries, dif_pos d.ascending]

theorem MemoryRecord.ofDict_toDict (r : MemoryRecord) :
    MemoryRecord.ofDict r.toDict = .ok r := by
  have hrefs : textsAt r.toDict "evidence_refs" = .ok r.evidenceRefs := textsAt_texts (by rfl)
  have hnodes : textsAt r.toDict "project_node_ids" = .ok r.projectNodeIds :=
    textsAt_texts (by rfl)
  have hhashes : textDictAt r.toDict "source_hashes" = .ok r.sourceHashes :=
    textDictAt_json (by rfl)
  rw [MemoryRecord.ofDict, hrefs, hnodes, hhashes]
  rfl

theorem CausalLink.ofRow_row (l : CausalLink) :
    CausalLink.ofRow (Event.causalLink l).row = .ok l := by
  have hrefs : textsAt (Event.causalLink l).row "evidence_refs" = .ok l.evidenceRefs :=
    textsAt_texts (by rfl)
  rw [CausalLink.ofRow, hrefs]
  rfl

theorem Index.indexEvent_row {env : Environment} {e : Event} (h : env.reject e.row = .ok ())
    (index : Index) : index.indexEvent env e.row = .ok (index.add e) := by
  cases e with
  | record r =>
    have hread : MemoryRecord.ofDict r.toDict = .ok r := r.ofDict_toDict
    have hrow : (Event.record r).row.member? "record" = some r.toDict := rfl
    rw [Index.indexEvent, h]
    simp only [hrow]
    change MemoryRecord.ofDict r.toDict >>= _ = _
    rw [hread]
    rfl
  | causalLink l =>
    rw [Index.indexEvent, h]
    change CausalLink.ofRow (Event.causalLink l).row >>= _ = _
    rw [l.ofRow_row]
    rfl

/-- No text of the event holds what `splitlines` takes for the end of a line. -/
def Event.OnOneLine (e : Event) : Prop := e.row.allTexts isOneLine = true

instance onOneLineDecidable (e : Event) : Decidable e.OnOneLine :=
  inferInstanceAs (Decidable (_ = true))

/-- The event can be read back from its line. -/
structure Event.Readable (env : Environment) (e : Event) : Prop where
  oneLine : e.OnOneLine
  accepted : env.reject e.row = .ok ()

theorem Event.text_chars {e : Event} (h : e.OnOneLine) :
    ∀ c ∈ e.text, isLineBoundary c = false := by
  refine Json.dumps_chars (p := isOneLine)
    ⟨fun c => not_lineBoundary_of_printable, ?_, ?_, fun s => isOneLine_iff.1⟩ e.row e.row_plain h
  · intro c hc
    simp only [readable, List.mem_cons, List.not_mem_nil, or_false] at hc
    rcases hc with rfl | rfl <;> decide
  · intro c hc
    simp only [readable, List.mem_cons, List.not_mem_nil, or_false] at hc
    rcases hc with rfl | rfl <;> decide

theorem Event.not_blank (e : Event) : isBlankLine e.text = false := by
  have hhead : ∃ cs, e.text = '\x7b' :: cs := by
    cases e with
    | record r => exact ⟨_, by rw [Event.text, Event.row, Json.dumps]; rfl⟩
    | causalLink l => exact ⟨_, by rw [Event.text, Event.row, Json.dumps]; rfl⟩
  obtain ⟨cs, hcs⟩ := hhead
  rw [isBlankLine, hcs, List.all_cons]
  rfl

theorem Index.indexLine_text {env : Environment} {e : Event} (h : e.Readable env)
    (index : Index) : index.indexLine env e.text = .ok (index.add e) := by
  rw [Index.indexLine, e.not_blank, if_neg (by decide), Event.text,
    loads_dumps readable_separated e.row_plain]
  exact Index.indexEvent_row h.accepted index

/-- The rebuild of a log of whole lines adds their events one after another. -/
theorem rebuildIndex_lines {env : Environment} {events : List Event}
    (h : ∀ e ∈ events, e.Readable env) :
    rebuildIndex env (events.flatMap Event.line) = .ok (events.foldl Index.add .empty) := by
  have hlines : splitlines (events.flatMap Event.line) = events.map Event.text := by
    have hsplit := splitlines_lines (events.map Event.text) fun line hline => by
      obtain ⟨e, he, rfl⟩ := List.mem_map.1 hline
      exact Event.text_chars (h e he).oneLine
    rw [List.flatMap_map] at hsplit
    exact hsplit
  have hfold : ∀ (events : List Event) (index : Index), (∀ e ∈ events, e.Readable env) →
      (events.map Event.text).foldlM (Index.indexLine env) index =
        .ok (events.foldl Index.add index) := by
    intro events
    induction events with
    | nil => exact fun _ _ => rfl
    | cons e events ih =>
      intro index h
      rw [List.map_cons, List.foldlM_cons, Index.indexLine_text (h e List.mem_cons_self)]
      exact ih _ fun e' he' => h e' (List.mem_cons_of_mem _ he')
  rw [rebuildIndex, hlines]
  exact hfold events .empty h

/-! ## The tables of the rebuilt index -/

def Event.record? : Event → Option MemoryRecord
  | record r => some r
  | causalLink _ => none

def Event.causalLink? : Event → Option CausalLink
  | record _ => none
  | causalLink l => some l

theorem foldl_add_records (events : List Event) (index : Index) :
    (events.foldl Index.add index).records = index.records.insertAll MemoryRecord.recordId
      MemoryRecord.indexRow (events.filterMap Event.record?) := by
  induction events generalizing index with
  | nil => rfl
  | cons e events ih =>
    rw [List.foldl_cons, ih]
    cases e <;> rfl

theorem foldl_add_links (events : List Event) (index : Index) :
    (events.foldl Index.add index).links = index.links.insertAll CausalLink.linkId
      CausalLink.indexRow (events.filterMap Event.causalLink?) := by
  induction events generalizing index with
  | nil => rfl
  | cons e events ih =>
    rw [List.foldl_cons, ih]
    cases e <;> rfl

/-! ## Histories -/

/-- A call of a caller, with what the clock said and where the call ended. -/
structure Call where
  request : Request
  utcNow : String
  outcome : Outcome

/-- The store, and the events whose line was completely written. -/
structure History where
  brain : Brain
  written : List Event

/-- The line of the event is in the log as a whole. -/
def Outcome.wrote (e : Event) : Outcome → Bool
  | .torn n => decide (e.line.length ≤ n)
  | _ => true

def History.call (env : Environment) (s : History) (c : Call) : History :=
  match s.brain.pending? env c.request c.utcNow with
  | none => s
  | some e => ⟨s.brain.write e c.outcome,
      if c.outcome.wrote e then s.written ++ [e] else s.written⟩

/-- Calls in any number and order, each of which may crash. -/
def history (env : Environment) : Machine History Call where
  init s := s = ⟨⟨[], .empty⟩, []⟩
  enabled _ _ := True
  step := History.call env

/-- The queries before and after: the old values in their old order, with new ones between. -/
def Extends (old new : List Value) (New : Value → Prop) : Prop :=
  ∃ extra, old.Sublist new ∧ (old ++ extra).Perm new ∧ ∀ v ∈ extra, New v

namespace History

/-- A record whose line was written and whose id is not in the index. -/
def UnindexedRecord (s : History) (v : Value) : Prop :=
  ∃ r, .record r ∈ s.written ∧ s.brain.index.records.row r.recordId = none ∧ v = r.toDict

end History

/-- A link as `causal_links` returns it. -/
def CausalLink.view (l : CausalLink) : Value := .obj [
  ("link_id", .str l.linkId), ("chain_id", .str l.chainId),
  ("source_record_id", .str l.sourceRecordId), ("target_record_id", .str l.targetRecordId),
  ("relation", .str l.relation), ("evidence_refs", texts l.evidenceRefs),
  ("created_at", .str l.createdAt)]

namespace History

/-- A link whose line was written and whose id is not in the index. -/
def UnindexedLink (s : History) (v : Value) : Prop :=
  ∃ l, .causalLink l ∈ s.written ∧ s.brain.index.links.row l.linkId = none ∧ v = l.view

/-- The rebuild returns, and the queries then return what they returned before, extended only
by what was written and not indexed. -/
def Rebuilds (env : Environment) (s : History) : Prop :=
  ∃ index, rebuildIndex env s.brain.log = .ok index ∧
    (∀ contours, ∃ old new, s.brain.index.listRecords contours = .ok old ∧
      index.listRecords contours = .ok new ∧ Extends old new s.UnindexedRecord) ∧
    ∀ chainId, ∃ old new, s.brain.index.causalLinks chainId = .ok old ∧
      index.causalLinks chainId = .ok new ∧ Extends old new s.UnindexedLink

/-- The index has no row of the event, and the first written event of its id is another. -/
def Superseded (s : History) : Event → Prop
  | .record r => s.brain.index.records.row r.recordId = none ∧
      ∃ r', (s.written.filterMap Event.record?).find? (·.recordId = r.recordId) = some r' ∧ r' ≠ r
  | .causalLink l => s.brain.index.links.row l.linkId = none ∧
      ∃ l', (s.written.filterMap Event.causalLink?).find? (·.linkId = l.linkId) = some l' ∧ l' ≠ l

/-- The condition on a call that appends an event: its line is written whole or not at all, can
be read back, and is not indexed over an earlier event of its id that is not indexed. -/
structure Sound (env : Environment) (s : History) (e : Event) (outcome : Outcome) : Prop where
  whole : ∀ n, outcome = .torn n → n = 0 ∨ e.line.length ≤ n
  readable : outcome.wrote e → e.Readable env
  first : outcome = .done → ¬ s.Superseded e

end History

/-- The histories whose calls all meet the condition. -/
def soundHistory (env : Environment) : Machine History Call where
  init := (history env).init
  enabled s c := ∀ e, s.brain.pending? env c.request c.utcNow = some e → s.Sound env e c.outcome
  step := (history env).step

namespace History

structure Inv (env : Environment) (s : History) : Prop where
  log : s.brain.log = s.written.flatMap Event.line
  readable : ∀ e ∈ s.written, e.Readable env
  records : Table.HoldsFirsts MemoryRecord.recordId MemoryRecord.indexRow s.brain.index.records
    (s.written.filterMap Event.record?)
  links : Table.HoldsFirsts CausalLink.linkId CausalLink.indexRow s.brain.index.links
    (s.written.filterMap Event.causalLink?)

variable {env : Environment} {s : History}

/-- A line in the log whose row is not in the index. -/
theorem Inv.unindexed (h : s.Inv env) {e : Event} (he : e.Readable env) :
    Inv env ⟨⟨s.brain.log ++ e.line, s.brain.index⟩, s.written ++ [e]⟩ where
  log := by
    rw [List.flatMap_append, ← h.log, List.flatMap_singleton]
  readable e' he' := by
    rcases List.mem_append.1 he' with he' | he'
    · exact h.readable e' he'
    · rw [List.mem_singleton.1 he']
      exact he
  records := by
    rw [List.filterMap_append]
    exact h.records.append _
  links := by
    rw [List.filterMap_append]
    exact h.links.append _

theorem Inv.done (h : s.Inv env) {e : Event} (he : e.Readable env) (hfirst : ¬ s.Superseded e) :
    Inv env ⟨⟨s.brain.log ++ e.line, s.brain.index.add e⟩, s.written ++ [e]⟩ := by
  have hlogged := h.unindexed he
  cases e with
  | record r =>
    refine ⟨hlogged.log, hlogged.readable, ?_, hlogged.links⟩
    rw [List.filterMap_append]
    apply h.records.insert
    intro hnone r' hr'
    by_contra hne
    exact hfirst ⟨hnone, r', hr', hne⟩
  | causalLink l =>
    refine ⟨hlogged.log, hlogged.readable, hlogged.records, ?_⟩
    rw [List.filterMap_append]
    apply h.links.insert
    intro hnone l' hl'
    by_contra hne
    exact hfirst ⟨hnone, l', hl', hne⟩

theorem line_length_pos (e : Event) : 0 < e.line.length := by
  rw [Event.line, List.length_append]
  exact Nat.succ_pos _

theorem Inv.call (h : s.Inv env) {c : Call}
    (hc : ∀ e, s.brain.pending? env c.request c.utcNow = some e → s.Sound env e c.outcome) :
    (s.call env c).Inv env := by
  unfold History.call
  cases he : s.brain.pending? env c.request c.utcNow with
  | none => exact h
  | some e =>
    obtain ⟨hwhole, hreadable, hfirst⟩ := hc e he
    cases ho : c.outcome with
    | done =>
      rw [ho] at hreadable
      exact h.done (hreadable rfl) (hfirst ho)
    | unindexed =>
      rw [ho] at hreadable
      exact h.unindexed (hreadable rfl)
    | torn n =>
      rw [ho] at hreadable
      rcases hwhole n ho with rfl | hn
      · -- no character of the line reached the log
        have hpos := line_length_pos e
        simp only [Brain.write, List.take_zero, List.append_nil, Outcome.wrote,
          Nat.not_le.2 hpos, decide_false, Bool.false_eq_true, if_false]
        exact h
      · simp only [Brain.write, List.take_of_length_le hn, Outcome.wrote, hn, decide_true, if_true]
        exact h.unindexed (hreadable (decide_eq_true hn))

end History

/-! ## The queries of an index that was rebuilt -/

/-- The value of a loaded text. -/
def loaded (text : List Char) : Value := (Json.loads id text).getD .null

theorem loaded_payload (r : MemoryRecord) :
    loads r.indexRow.payload = .ok r.toDict ∧ loaded r.indexRow.payload = r.toDict := by
  have h := Json.loads_dumps id readable_separated r.toDict_plain
  exact ⟨by rw [loads, MemoryRecord.indexRow, h], by rw [loaded, MemoryRecord.indexRow, h]; rfl⟩

theorem view_indexRow (l : CausalLink) : l.indexRow.view = .ok l.view := by
  have h := loads_dumps plain_separated (texts_plain l.evidenceRefs)
  rw [LinkRow.view, CausalLink.indexRow, h]
  rfl

/-- The value of a row of the links. -/
def LinkRow.shown (r : LinkRow) : Value :=
  match r.view with
  | .ok v => v
  | .error _ => .null

/-- A query over a table that only got more rows, each of which it can show. -/
theorem extends_query {ρ γ : Type} [LinearOrder γ] {t t' : Table String ρ} (ident : ρ → String)
    {order : ρ → γ} {show? : ρ → Except String Value} (shown : ρ → Value)
    (hsub : ∀ k r, t.row k = some r → t'.row k = some r)
    (hident : ∀ k r, t'.row k = some r → ident r = k)
    (horder : ∀ r r', order r = order r' → ident r = ident r')
    (hshow : ∀ k r, t'.row k = some r → show? r = .ok (shown r)) (p : ρ → Bool)
    {New : Value → Prop}
    (hnew : ∀ k r, t'.row k = some r → t.row k = none → New (shown r)) :
    ∃ old new, (sortOn order (t.toList.filter p)).mapM show? = .ok old ∧
      (sortOn order (t'.toList.filter p)).mapM show? = .ok new ∧ Extends old new New := by
  have hall : ∀ r ∈ sortOn order (t'.toList.filter p), show? r = .ok (shown r) := by
    intro r hr
    rw [mem_sortOn, List.mem_filter, Table.mem_toList] at hr
    obtain ⟨⟨k, hk⟩, _⟩ := hr
    exact hshow k r hk
  obtain ⟨extra, hsublist, hperm, hextra⟩ := Table.sortOn_extension hsub hident horder p
  refine ⟨_, _, mapM_eq_ok fun r hr => hall r (hsublist.subset hr), mapM_eq_ok hall,
    extra.map shown, hsublist.map shown, ?_, ?_⟩
  · rw [← List.map_append]
    exact hperm.map shown
  · intro v hv
    obtain ⟨r, hr, rfl⟩ := List.mem_map.1 hv
    obtain ⟨k, hk, hnone⟩ := hextra r hr
    exact hnew k r hk hnone

theorem RecordRow.eq_of_order {r r' : RecordRow} (h : r.order = r'.order) :
    r.recordId = r'.recordId := by
  have h := congrArg (fun x => (ofLex x).2) h
  exact h

theorem LinkRow.eq_of_order {r r' : LinkRow} (h : r.order = r'.order) :
    r.linkId = r'.linkId := by
  have h := congrArg (fun x => (ofLex x).2) h
  exact h

namespace History

variable {env : Environment} {s : History}

theorem mem_records {events : List Event} {r : MemoryRecord}
    (h : r ∈ events.filterMap Event.record?) : .record r ∈ events := by
  obtain ⟨e, he, hr⟩ := List.mem_filterMap.1 h
  cases e with
  | record r' =>
    obtain rfl := Option.some.inj hr
    exact he
  | causalLink l => simp [Event.record?] at hr

theorem mem_links {events : List Event} {l : CausalLink}
    (h : l ∈ events.filterMap Event.causalLink?) : .causalLink l ∈ events := by
  obtain ⟨e, he, hl⟩ := List.mem_filterMap.1 h
  cases e with
  | record r => simp [Event.causalLink?] at hl
  | causalLink l' =>
    obtain rfl := Option.some.inj hl
    exact he

theorem Inv.rebuilds (h : s.Inv env) : s.Rebuilds env := by
  refine ⟨s.written.foldl Index.add .empty, ?_, ?_, ?_⟩
  · rw [h.log]
    exact rebuildIndex_lines h.readable
  · intro contours
    have hrecords := foldl_add_records s.written .empty
    have hof : ∀ k row, (s.written.foldl Index.add .empty).records.row k = some row →
        ∃ r ∈ s.written.filterMap Event.record?, r.recordId = k ∧ r.indexRow = row := by
      intro k row hrow
      rw [hrecords] at hrow
      exact Table.of_insertAll_row hrow
    apply extends_query RecordRow.recordId fun row => loaded row.payload
    · intro k row hrow
      rw [hrecords]
      exact h.records.insertAll hrow
    · intro k row hrow
      obtain ⟨r, _, rfl, rfl⟩ := hof k row hrow
      rfl
    · exact fun _ _ => RecordRow.eq_of_order
    · intro k row hrow
      obtain ⟨r, _, rfl, rfl⟩ := hof k row hrow
      rw [(loaded_payload r).1, (loaded_payload r).2]
    · intro k row hrow hnone
      obtain ⟨r, hr, rfl, rfl⟩ := hof k row hrow
      exact ⟨r, mem_records hr, hnone, (loaded_payload r).2⟩
  · intro chainId
    have hlinks := foldl_add_links s.written .empty
    have hof : ∀ k row, (s.written.foldl Index.add .empty).links.row k = some row →
        ∃ l ∈ s.written.filterMap Event.causalLink?, l.linkId = k ∧ l.indexRow = row := by
      intro k row hrow
      rw [hlinks] at hrow
      exact Table.of_insertAll_row hrow
    apply extends_query LinkRow.linkId LinkRow.shown
    · intro k row hrow
      rw [hlinks]
      exact h.links.insertAll hrow
    · intro k row hrow
      obtain ⟨l, _, rfl, rfl⟩ := hof k row hrow
      rfl
    · exact fun _ _ => LinkRow.eq_of_order
    · intro k row hrow
      obtain ⟨l, _, rfl, rfl⟩ := hof k row hrow
      rw [LinkRow.shown, view_indexRow]
    · intro k row hrow hnone
      obtain ⟨l, hl, rfl, rfl⟩ := hof k row hrow
      exact ⟨l, mem_links hl, hnone, by rw [LinkRow.shown, view_indexRow]⟩

end History

variable {env : Environment} {s : History}

theorem soundHistory_invariant (hs : (soundHistory env).Reachable s) : s.Inv env := by
  apply hs.invariant
  · rintro s rfl
    refine ⟨rfl, by simp, ?_, ?_⟩
    · intro k row hrow
      simp [Index.empty] at hrow
    · intro k row hrow
      simp [Index.empty] at hrow
  · intro s c _ h hc
    exact h.call hc

theorem rebuild_preserves (hs : (soundHistory env).Reachable s) : s.Rebuilds env :=
  (soundHistory_invariant hs).rebuilds

/-! ## A record written twice -/

/-- An environment whose check finds nothing. -/
def openEnvironment : Environment where
  sha256 _ := "8b1a9953c4611296a827abf8c47804d7"
  rejectSensitiveData _ := none

def observation : RecordArgs where
  contour := "execution"
  entity := "task-1"
  recordType := "observed"
  source := "ci"
  evidenceRefs := ["run-1"]
  repository := "trading-bot-v2"
  branch := "main"
  commitSha := "4f2a"
  authority := "operator"
  summary := "first run"

def firstTry : String := "2026-01-01T00:00:00+00:00"

def secondTry : String := "2026-01-01T00:05:00+00:00"

/-- The event of the observation at a time. -/
def observed (utcNow : String) : MemoryRecord := observation.record openEnvironment utcNow

theorem observed_readable {utcNow : String} (h : utcNow = firstTry ∨ utcNow = secondTry) :
    (Event.record (observed utcNow)).Readable openEnvironment := by
  rcases h with rfl | rfl
  · exact ⟨by decide +kernel, rfl⟩
  · exact ⟨by decide +kernel, rfl⟩

/-- A first try that crashes between the log and the index, and the retry. -/
def retried (firstTime secondTime : String) : List Call :=
  [⟨.appendRecord observation, firstTime, .unindexed⟩,
    ⟨.appendRecord observation, secondTime, .done⟩]

theorem run_retried (firstTime secondTime : String) :
    (history openEnvironment).run ⟨⟨[], .empty⟩, []⟩ (retried firstTime secondTime) =
      ⟨⟨(Event.record (observed firstTime)).line ++ (Event.record (observed secondTime)).line,
        Index.empty.add (.record (observed secondTime))⟩,
        [.record (observed firstTime), .record (observed secondTime)]⟩ := rfl

theorem rebuild_preserves_retried :
    ((soundHistory openEnvironment).run ⟨⟨[], .empty⟩, []⟩ (retried firstTry firstTry)).Rebuilds
      openEnvironment := by
  refine rebuild_preserves (Machine.reachable_run (M := soundHistory openEnvironment)
    (retried firstTry firstTry) rfl ⟨?_, ?_, trivial⟩)
  · intro e he
    obtain rfl : Event.record (observed firstTry) = e := Option.some.inj he
    refine ⟨fun n hn => ?_, fun _ => observed_readable (.inl rfl), fun hn => ?_⟩ <;> cases hn
  · intro e he
    obtain rfl : Event.record (observed firstTry) = e := Option.some.inj he
    refine ⟨fun n hn => ?_, fun _ => observed_readable (.inl rfl), fun _ hsuper => ?_⟩
    · cases hn
    · -- the retry brings the event that is in the log
      obtain ⟨_, r, hr, hne⟩ := hsuper
      exact hne (Option.some.inj hr).symm

/-- After a retry at a later time the index has the record of that time, and the rebuild takes
the one of the first try. -/
theorem rebuild_changes_retried :
    (history openEnvironment).Reachable
        ((history openEnvironment).run ⟨⟨[], .empty⟩, []⟩ (retried firstTry secondTry)) ∧
      ¬ ((history openEnvironment).run ⟨⟨[], .empty⟩, []⟩ (retried firstTry secondTry)).Rebuilds
        openEnvironment := by
  refine ⟨Machine.reachable_run (M := history openEnvironment) (retried firstTry secondTry) rfl
    ⟨trivial, trivial, trivial⟩, ?_⟩
  rw [run_retried]
  rintro ⟨index, hindex, hrecords, _⟩
  have hreadable : ∀ e ∈ [Event.record (observed firstTry), .record (observed secondTry)],
      e.Readable openEnvironment := by
    intro e he
    simp only [List.mem_cons, List.not_mem_nil, or_false] at he
    rcases he with rfl | rfl
    · exact observed_readable (.inl rfl)
    · exact observed_readable (.inr rfl)
  have hlog := rebuildIndex_lines hreadable
  rw [List.flatMap_cons, List.flatMap_singleton, hindex] at hlog
  obtain rfl := Except.ok.inj hlog
  obtain ⟨old, new, hold, hnew, extra, hsub, _⟩ := hrecords []
  have hold' : Except.ok [(observed secondTry).toDict] = Except.ok (ε := String) old := by
    rw [← hold]
    change _ = [(observed secondTry).indexRow].mapM fun r => loads r.payload
    rw [List.mapM_cons, (loaded_payload _).1]
    rfl
  have hnew' : Except.ok [(observed firstTry).toDict] = Except.ok (ε := String) new := by
    rw [← hnew]
    change _ = [(observed firstTry).indexRow].mapM fun r => loads r.payload
    rw [List.mapM_cons, (loaded_payload _).1]
    rfl
  obtain rfl := Except.ok.inj hold'
  obtain rfl := Except.ok.inj hnew'
  have hmem := List.mem_singleton.1 (hsub.subset List.mem_cons_self)
  have htime := congrArg (fun v => textAt v "verified_at") hmem
  have htime : Except.ok (ε := String) secondTry = .ok firstTry := htime
  exact absurd (Except.ok.inj htime) (by decide)

end ResearchLab.ProjectBrain
