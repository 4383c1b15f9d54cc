import Mathlib
import ResearchLab.Foundation.Checks
import ResearchLab.TrainingExport.Export

/-!
# Skipped exports

A call may skip the export when the terminal source of the last one is unchanged. The digests
cover whatever a row of that source is made of, but not which signals the last call selected:
an export of all signals leaves the digests of its terminal source and more rows than that.
-/
namespace ResearchLab.TrainingExport
open Foundation Json PaperSignals

/-! ## Loops over permuted and divided lists -/

section Loops

variable {α β ε : Type} {f g : α → Except ε β}

theorem mapM_perm {l l' : List α} (hperm : l.Perm l') (hfg : ∀ x ∈ l, f x = g x) {rows : List β}
    (h : l.mapM f = .ok rows) : ∃ rows', l'.mapM g = .ok rows' ∧ rows'.Perm rows := by
  have hg : List.Forall₂ (fun x a => g x = .ok a) l rows :=
    (List.forall₂_iff_get.1 (mapM_eq_ok_iff.1 h)).elim fun hlen hget =>
      List.forall₂_iff_get.2 ⟨hlen, fun i hl hr => by
        rw [← hfg _ (List.get_mem l ⟨i, hl⟩)]
        exact hget i hl hr⟩
  obtain ⟨rows', hrows', hp⟩ := List.perm_comp_forall₂ hperm.symm hg
  exact ⟨rows', mapM_eq_ok_iff.2 hrows', hp⟩

/-- A loop over a list, divided by a test of its items. -/
theorem mapM_divided (p : α → Bool) {l : List α} {rows : List β} (h : l.mapM f = .ok rows) :
    ∃ yes no, (l.filter p).mapM f = .ok yes ∧ (l.filter fun x => !p x).mapM f = .ok no ∧
      rows.Perm (yes ++ no) := by
  obtain ⟨rows', h', hperm⟩ := mapM_perm (g := f) (List.filter_append_perm p l).symm
    (fun _ _ => rfl) h
  rw [List.mapM_append] at h'
  obtain ⟨yes, hyes, h'⟩ := bind_eq_ok.1 h'
  obtain ⟨no, hno, h'⟩ := bind_eq_ok.1 h'
  cases h'
  exact ⟨yes, no, hyes, hno, hperm.symm⟩

/-- No result of a loop passes the test: no item gives one that does. -/
theorem filter_mapM_eq_nil {q : β → Bool} {l : List α} {rows : List β} (h : l.mapM f = .ok rows) :
    rows.filter q = [] ↔ ∀ x ∈ l, ∀ row, f x = .ok row → q row = false := by
  rw [List.filter_eq_nil_iff]
  replace h := mapM_eq_ok_iff.1 h
  induction h with
  | nil => simp
  | @cons x a l rows hx _ ih =>
    rw [List.forall_mem_cons, List.forall_mem_cons, hx]
    refine and_congr ⟨?_, fun ha => ?_⟩ ih
    · rintro ha row hrow
      cases hrow
      exact Bool.eq_false_iff.2 ha
    · exact Bool.eq_false_iff.1 (ha a rfl)

end Loops

variable (py : Python) {δ : Type} [DecidableEq δ] (digest : Value → δ)

/-! ## One call -/

/-- What a call writes that is not skipped. -/
def output (call : Call) : Except String (Files δ × Summary δ) := do
  let p ← prepare py call.sources
  written py digest call p

theorem exportTrainingRows_written {call : Call} {files files' : Files δ} {summary : Summary δ}
    (h : exportTrainingRows py digest call files = .ok (files', .written summary)) :
    output py digest call = .ok (files', summary) := by
  obtain ⟨p, hp, h⟩ := bind_eq_ok.1 h
  cases hskip : skippable digest call p files with
  | some existing =>
    rw [hskip] at h
    cases h
  | none =>
    rw [hskip] at h
    obtain ⟨out, hout, h⟩ := bind_eq_ok.1 h
    cases h
    exact bind_eq_ok.2 ⟨p, hp, hout⟩

theorem exportTrainingRows_skipped {call : Call} {files files' : Files δ} {existing : Summary δ}
    (h : exportTrainingRows py digest call files = .ok (files', .skipped existing)) :
    files' = files ∧ ∃ p, prepare py call.sources = .ok p ∧
      skippable digest call p files = some existing := by
  obtain ⟨p, hp, h⟩ := bind_eq_ok.1 h
  cases hskip : skippable digest call p files with
  | some existing' =>
    rw [hskip] at h
    cases h
    exact ⟨rfl, p, hp, hskip⟩
  | none =>
    rw [hskip] at h
    obtain ⟨out, _, h⟩ := bind_eq_ok.1 h
    cases h

/-- A forced call writes. -/
theorem exportTrainingRows_forced (call : Call) (files : Files δ) :
    exportTrainingRows py digest { call with force := true } files =
      (output py digest call).map fun out => (out.1, .written out.2) := by
  simp only [exportTrainingRows, output]
  cases prepare py call.sources with
  | error e => rfl
  | ok p =>
    have hskip : skippable digest { call with force := true } p files = none :=
      if_neg fun h => Bool.noConfusion h.2.1
    simp only [bind, Except.bind, hskip]
    change (written py digest call p).bind _ = (written py digest call p).map _
    cases written py digest call p <;> rfl

/-- What the summary of a skipped call tells about the files. -/
theorem skippable_eq_some {call : Call} {p : Prepared} {files : Files δ} {existing : Summary δ}
    (h : skippable digest call p files = some existing) :
    call.terminalOnly = true ∧ files.snapshot = some existing ∧
      sourceUnchanged digest call.sources p existing = true := by
  rw [skippable] at h
  split at h
  · next hcall =>
    obtain ⟨hsnapshot, hunchanged⟩ := Option.filter_eq_some_iff.1 h
    exact ⟨hcall.1, hsnapshot, hunchanged⟩
  · cases h

/-! ## The digests cover the rows of the terminal source -/

section Digests

variable {py} {s s' : Sources} {p p' : Prepared}

/-- Whatever the rows of the two terminal sources show of their documents is written in the same
order. -/
def KeepsOrder (py : Python) (s s' : Sources) : Prop :=
  ∀ p p', prepare py s = .ok p → prepare py s' = .ok p' →
    ∀ sig ∈ p.sourceTerminal, ∀ sig' ∈ p'.sourceTerminal, sig.signalId = sig'.signalId →
      Shown sig sig' (s.refs (p.review sig) sig) (s'.refs (p'.review sig') sig')

theorem alike_of_sourcePayload {l l' : List PaperActionSignal}
    (h : Alike (sourcePayload l) (sourcePayload l')) :
    List.Forall₂ (fun sig sig' => Alike (.obj sig.toDict : Value) (.obj sig'.toDict))
      (sortOn PaperActionSignal.signalId l) (sortOn PaperActionSignal.signalId l') := by
  rwa [sourcePayload, sourcePayload, alike_arr, List.forall₂_map_left_iff,
    List.forall₂_map_right_iff] at h

theorem refsAlike_of_refsEntry {sig sig' : PaperActionSignal}
    (h : Alike (refsEntry s p sig) (refsEntry s' p' sig')) :
    RefsAlike (s.refs (p.review sig) sig) (s'.refs (p'.review sig') sig') where
  card := h.field "card"
  trade := h.field "trade"
  advice := h.field "advice"
  policy := h.field "policy"
  outcomeReview := h.field "outcome_review"

/-- Two calls with alike entries for a signal give it the same line. -/
theorem candidateRow_alike (horder : KeepsOrder py s s') (hp : prepare py s = .ok p)
    (hp' : prepare py s' = .ok p') {sig sig' : PaperActionSignal} (hmem : sig ∈ p.sourceTerminal)
    (hmem' : sig' ∈ p'.sourceTerminal)
    (hsig : Alike (.obj sig.toDict : Value) (.obj sig'.toDict))
    (hrefs : Alike (refsEntry s p sig) (refsEntry s' p' sig')) :
    (candidateRow py s p sig).map sortedRow = (candidateRow py s' p' sig').map sortedRow := by
  have hid : sig.signalId = sig'.signalId := by rw [(alike_toDict hsig).1]
  exact trainingRow_alike hsig (refsAlike_of_refsEntry hrefs) (horder p p' hp hp' sig hmem sig' hmem' hid)

/-- Signals that give the same lines one by one give them in a loop. -/
theorem mapM_alike {l l' : List PaperActionSignal} {rows : List Dict}
    (h : List.Forall₂ (fun sig sig' =>
      (candidateRow py s p sig).map sortedRow = (candidateRow py s' p' sig').map sortedRow) l l')
    (hrows : l.mapM (candidateRow py s p) = .ok rows) :
    ∃ rows', l'.mapM (candidateRow py s' p') = .ok rows' ∧
      (rows'.filter (isMarketOutcome py)).map sortedRow =
        (rows.filter (isMarketOutcome py)).map sortedRow := by
  rw [mapM_eq_ok_iff] at hrows
  simp only [mapM_eq_ok_iff]
  induction hrows generalizing l' with
  | nil =>
    cases h
    exact ⟨[], .nil, rfl⟩
  | @cons sig row l rows hrow _ ih =>
    obtain ⟨sig', l', hsame, hrest, rfl⟩ := List.forall₂_cons_left_iff.1 h
    obtain ⟨rows', hrows', hlines⟩ := ih hrest
    rw [hrow] at hsame
    cases hrow' : candidateRow py s' p' sig' with
    | error e =>
      rw [hrow'] at hsame
      cases hsame
    | ok row' =>
      rw [hrow'] at hsame
      have hline : sortedRow row = sortedRow row' := Except.ok.inj hsame
      have hkept : isMarketOutcome py row' = isMarketOutcome py row := by
        rw [← isMarketOutcome_sortedRow hrow', ← isMarketOutcome_sortedRow hrow, hline]
      refine ⟨row' :: rows', .cons hrow' hrows', ?_⟩
      rw [List.filter_cons, List.filter_cons, hkept]
      split_ifs
      · rw [List.map_cons, List.map_cons, hlines, hline]
      · exact hlines

/-- With equal digests both calls export the same lines of their terminal sources. -/
theorem rows_of_equal_digests (horder : KeepsOrder py s s') (hp : prepare py s = .ok p)
    (hp' : prepare py s' = .ok p')
    (hsource : Alike (sourcePayload p.sourceTerminal) (sourcePayload p'.sourceTerminal))
    (hrefs : Alike (refsPayload s p) (refsPayload s' p')) {rows : List Dict}
    (hrows : p.sourceTerminal.mapM (candidateRow py s p) = .ok rows) :
    ∃ rows', p'.sourceTerminal.mapM (candidateRow py s' p') = .ok rows' ∧
      ((rows'.filter (isMarketOutcome py)).map sortedRow).Perm
        ((rows.filter (isMarketOutcome py)).map sortedRow) := by
  have hsigs := alike_of_sourcePayload hsource
  rw [refsPayload, refsPayload, alike_arr, List.forall₂_map_left_iff,
    List.forall₂_map_right_iff] at hrefs
  have hlines : List.Forall₂ (fun sig sig' =>
      (candidateRow py s p sig).map sortedRow = (candidateRow py s' p' sig').map sortedRow)
      (sortOn PaperActionSignal.signalId p.sourceTerminal)
      (sortOn PaperActionSignal.signalId p'.sourceTerminal) := by
    rw [List.forall₂_iff_get] at hsigs hrefs ⊢
    refine ⟨hsigs.1, fun i hi hi' => ?_⟩
    exact candidateRow_alike horder hp hp' (mem_sortOn.1 (List.get_mem _ _))
      (mem_sortOn.1 (List.get_mem _ _)) (hsigs.2 i hi hi') (hrefs.2 i hi hi')
  obtain ⟨sortedRows, hsorted, hperm⟩ := mapM_perm
    (sortOn_perm PaperActionSignal.signalId p.sourceTerminal).symm (fun _ _ => rfl) hrows
  obtain ⟨sortedRows', hsorted', hsame⟩ := mapM_alike hlines hsorted
  obtain ⟨rows', hrows', hperm'⟩ := mapM_perm
    (sortOn_perm PaperActionSignal.signalId p'.sourceTerminal) (fun _ _ => rfl) hsorted'
  refine ⟨rows', hrows', ((hperm'.filter _).map _).trans ?_⟩
  rw [hsame]
  exact (hperm.filter _).map _

end Digests

/-! ## What an export holds beside its terminal source -/

/-- The signal is no part of the terminal source. -/
def outside (s : Sources) (sig : PaperActionSignal) : Bool := !(isTerminal sig && isBound s sig)

/-- No signal outside the terminal source gives a row that an export of all signals keeps. -/
def OnlyTerminalRows (s : Sources) : Prop :=
  ∀ p, prepare py s = .ok p → ∀ sig ∈ p.signals, isMarketSignal py sig = true →
    outside s sig = true → ∀ row, candidateRow py s p sig = .ok row →
      isMarketOutcome py row = false

theorem sourceTerminal_eq {s : Sources} {p : Prepared} (h : prepare py s = .ok p) :
    p.sourceTerminal = (p.signals.filter (isMarketSignal py)).filter
      fun sig => !outside s sig := by
  obtain ⟨signals, _, h⟩ := bind_eq_ok.1 h
  obtain ⟨preliminary, _, h⟩ := bind_eq_ok.1 h
  cases h
  simp only [List.filter_filter, outside, Bool.not_not]
  exact List.filter_congr fun sig _ => by
    cases isTerminal sig <;> cases isBound s sig <;> cases isMarketSignal py sig <;> rfl

variable {digest}

omit [DecidableEq δ] in
/-- The rows in the file are those of the terminal source and, after an export of all signals,
those of the signals outside it. -/
theorem rows_of_written {call : Call} {p : Prepared} (hp : prepare py call.sources = .ok p)
    {files : Files δ} {summary : Summary δ}
    (h : written py digest call p = .ok (files, summary)) :
    ∃ (inner others stored : List Dict),
      p.sourceTerminal.mapM (candidateRow py call.sources p) = .ok inner ∧
      files.jsonl = some stored ∧
      stored.Perm ((inner.filter (isMarketOutcome py)).map sortedRow ++
        (others.filter (isMarketOutcome py)).map sortedRow) ∧
      (others.filter (isMarketOutcome py) = [] ↔
        call.terminalOnly = true ∨ OnlyTerminalRows py call.sources) := by
  obtain ⟨candidates, hcandidates, h⟩ := bind_eq_ok.1 h
  cases h
  by_cases hterminal : call.terminalOnly = true
  · rw [Prepared.selected, if_pos hterminal] at hcandidates
    exact ⟨candidates, [], _, hcandidates, rfl, by simp, by simp [hterminal]⟩
  rw [Prepared.selected, if_neg hterminal] at hcandidates
  obtain ⟨inner, others, hinner, hothers, hperm⟩ :=
    mapM_divided (fun sig => !outside call.sources sig) hcandidates
  rw [← sourceTerminal_eq py hp] at hinner
  refine ⟨inner, others, _, hinner, rfl, ?_, ?_⟩
  · have hrows := (hperm.filter (isMarketOutcome py)).map sortedRow
    rwa [List.filter_append, List.map_append] at hrows
  rw [filter_mapM_eq_nil hothers]
  simp only [Bool.not_not, List.mem_filter]
  constructor
  · intro hnone
    refine Or.inr fun p' hp' sig hsig hmarket hout row hrow => ?_
    obtain rfl : p = p' := Except.ok.inj (hp.symm.trans hp')
    exact hnone sig ⟨⟨hsig, hmarket⟩, hout⟩ row hrow
  · rintro (honly | honly) sig ⟨⟨hsig, hmarket⟩, hout⟩ row hrow
    · exact absurd honly hterminal
    · exact honly p hp sig hsig hmarket hout row hrow

variable (digest)

/-! ## Histories of calls -/

theorem afterCall_cases (call : Call) (files : Files δ) :
    afterCall py digest call files = (files, false) ∨
      ∃ files' summary, afterCall py digest call files = (files', true) ∧
        output py digest call = .ok (files', summary) := by
  unfold afterCall
  cases hcall : exportTrainingRows py digest call files with
  | error e => exact .inl rfl
  | ok out =>
    obtain ⟨files', result⟩ := out
    cases result with
    | skipped existing =>
      obtain ⟨rfl, _⟩ := exportTrainingRows_skipped py digest hcall
      exact .inl rfl
    | written summary =>
      exact .inr ⟨files', summary, rfl, exportTrainingRows_written py digest hcall⟩

/-- The files are those of `initial`, or as the last writing call left them. -/
def LeftBy (initial : Files δ) (run : Files δ × Option Call) : Prop :=
  (run.2 = none → run.1 = initial) ∧
    ∀ last, run.2 = some last → ∃ summary, output py digest last = .ok (run.1, summary)

theorem leftBy_runFrom {initial files : Files δ} {last : Option Call} (history : List Call)
    (h : LeftBy py digest initial (files, last)) :
    LeftBy py digest initial (runFrom py digest files last history) := by
  rw [runFrom]
  refine List.foldlRecOn history _ h fun run hrun call _ => ?_
  obtain hstep | ⟨files', summary, hstep, hout⟩ := afterCall_cases py digest call run.1
  · simp only [hstep, Bool.false_eq_true, if_false]
    exact hrun
  simp only [hstep, if_true]
  refine ⟨fun h => absurd h (by simp), fun last h => ⟨summary, ?_⟩⟩
  obtain rfl : call = last := by simpa using h
  exact hout

/-- The files are as the last writing call left them. -/
theorem runCalls_eq (initial : Files δ) (history : List Call) :
    (lastWriting py digest initial history = none →
        runCalls py digest initial history = initial) ∧
      ∀ last, lastWriting py digest initial history = some last → ∃ summary,
        output py digest last = .ok (runCalls py digest initial history, summary) :=
  leftBy_runFrom py digest history ⟨fun _ => rfl, fun last h => absurd h (by simp)⟩

/-- No snapshot of this version of the rows. -/
def Fresh (files : Files δ) : Prop :=
  ∀ summary, files.snapshot = some summary → summary.rowFieldsVersion ≠ rowFieldsVersion

/-- The file has the rows, in some order, that the same call with `force` would write. -/
def UpToDate (call : Call) (files : Files δ) : Prop :=
  ∃ (forced : Files δ) (result : Result δ) (rows stored : List Dict),
    exportTrainingRows py digest { call with force := true } files = .ok (forced, result) ∧
      forced.jsonl = some rows ∧ files.jsonl = some stored ∧ stored.Perm rows

variable {digest}

/-- The digests that the last export stored stand for its terminal source. -/
theorem payloads_alike (hdigest : ∀ v w, digest v = digest w → Alike v w) {call last : Call} {p p' : Prepared}
    {files : Files δ} {summary existing : Summary δ}
    (hwritten : written py digest last p' = .ok (files, summary))
    (hskip : skippable digest call p files = some existing) :
    Alike (sourcePayload p'.sourceTerminal) (sourcePayload p.sourceTerminal) ∧
      Alike (refsPayload last.sources p') (refsPayload call.sources p) := by
  obtain ⟨_, hsnapshot, hunchanged⟩ := skippable_eq_some digest hskip
  obtain ⟨candidates, _, hwritten⟩ := bind_eq_ok.1 hwritten
  cases hwritten
  cases hsnapshot
  simp only [sourceUnchanged, Bool.and_eq_true, decide_eq_true_eq] at hunchanged
  exact ⟨hdigest _ _ hunchanged.1.1.1, hdigest _ _ hunchanged.1.1.2⟩

/-- After the last writing call, the file of a skipped one is up to date if and only if that call
selected the terminal source alone, or had no rows beside it. -/
theorem upToDate_iff_of_written (hdigest : ∀ v w, digest v = digest w → Alike v w)
    {call last : Call} (horder : KeepsOrder py last.sources call.sources)
    {p : Prepared} {files : Files δ} {summary existing : Summary δ}
    (hlast : output py digest last = .ok (files, summary)) (hp : prepare py call.sources = .ok p)
    (hskip : skippable digest call p files = some existing) :
    UpToDate py digest call files ↔
      last.terminalOnly = true ∨ OnlyTerminalRows py last.sources := by
  obtain ⟨p', hp', hwritten⟩ := bind_eq_ok.1 hlast
  obtain ⟨hsource, hrefs⟩ := payloads_alike py hdigest hwritten hskip
  obtain ⟨inner, others, stored, hinner, hstored, hperm, hothers⟩ :=
    rows_of_written py hp' hwritten
  obtain ⟨current, hcurrent, hsame⟩ := rows_of_equal_digests horder hp' hp hsource hrefs hinner
  have hforced : ∃ summary', output py digest { call with force := true } =
      .ok (⟨some ((current.filter (isMarketOutcome py)).map sortedRow), some summary'⟩, summary') := by
    refine ⟨_, bind_eq_ok.2 ⟨p, hp, bind_eq_ok.2 ⟨current, ?_, rfl⟩⟩⟩
    rw [Prepared.selected, if_pos (skippable_eq_some digest hskip).1]
    exact hcurrent
  obtain ⟨summary', hforced⟩ := hforced
  rw [← hothers]
  constructor
  · rintro ⟨forced, result, rows, stored', hcall, hrows, hstored', hrowsPerm⟩
    have hcall' := exportTrainingRows_forced py digest call files
    rw [hcall, show output py digest call = _ from hforced] at hcall'
    cases hcall'
    cases hrows
    obtain rfl : stored = stored' := Option.some.inj (hstored.symm.trans hstored')
    have hlength := ((hperm.symm.trans hrowsPerm).trans hsame).length_eq
    rw [List.length_append] at hlength
    have hnone : ((others.filter (isMarketOutcome py)).map sortedRow).length = 0 := by omega
    exact List.map_eq_nil_iff.1 (List.length_eq_zero_iff.1 hnone)
  · intro hnone
    rw [hnone, List.map_nil, List.append_nil] at hperm
    refine ⟨⟨some ((current.filter (isMarketOutcome py)).map sortedRow), some summary'⟩,
      .written summary', _,
      stored, ?_, rfl, hstored, hperm.trans hsame.symm⟩
    rw [exportTrainingRows_forced, show output py digest call = _ from hforced]
    rfl

/-- Whenever a call of a history skips, and shows what the last writing call showed in the same
order, the file holds the rows of a forced one if and only if that last call exported the terminal
source alone, or no row beside it. -/
theorem skipped_export_upToDate_iff (hdigest : ∀ v w, digest v = digest w → Alike v w)
    {initial : Files δ} (hfresh : Fresh initial) {history : List Call} {call : Call}
    {files : Files δ} {existing : Summary δ}
    (hskip : exportTrainingRows py digest call (runCalls py digest initial history) =
      .ok (files, .skipped existing))
    (horder : ∀ last, lastWriting py digest initial history = some last →
      KeepsOrder py last.sources call.sources) :
    UpToDate py digest call files ↔ ∃ last, lastWriting py digest initial history = some last ∧
      (last.terminalOnly = true ∨ OnlyTerminalRows py last.sources) := by
  obtain ⟨rfl, p, hp, hskippable⟩ := exportTrainingRows_skipped py digest hskip
  obtain ⟨hnone, hsome⟩ := runCalls_eq py digest initial history
  cases hlast : lastWriting py digest initial history with
  | none =>
    rw [hnone hlast] at hskippable
    obtain ⟨_, hsnapshot, hunchanged⟩ := skippable_eq_some digest hskippable
    simp only [sourceUnchanged, Bool.and_eq_true, decide_eq_true_eq] at hunchanged
    exact absurd hunchanged.1.2 (hfresh _ hsnapshot)
  | some last =>
    obtain ⟨summary, hout⟩ := hsome last hlast
    simpa using upToDate_iff_of_written py hdigest (horder last hlast) hout hp hskippable

/-! ## An export of all signals before one of the terminal source -/

/-- Python's library where all texts are lower case and no composite value is shown. -/
def lowerCasePython : Python where
  repr := fun _ => ""
  int
    | .int n => .ok n
    | _ => .error "ValueError"
  float
    | .float x => some x
    | _ => none
  lowered := id
  hashText := id
  evidenceContentHash := fun _ => ""

def watchedSignal (signalId status : String) : PaperActionSignal where
  signalId := signalId
  source := "farm"
  symbol := "BTCUSDT"
  okxInstId := "BTC-USDT-SWAP"
  timeframe := "15m"
  side := "long"
  setupFamily := "reclaim"
  entryZone := [100, 101]
  stopLoss := 99
  invalidationRule := "close below the stop"
  takeProfitPlan := [[("price", .float 104)]]
  maxHoldBars := 8
  maxHoldMinutes := 120
  reasonNow := "level reclaimed"
  status := status
  outcome := [("result", .str "take")]

/-- The log holds a closed and an armed signal, and a policy refers to them. -/
def closedAndArmed (policy : Dict) : Sources where
  signals := [watchedSignal "a" "closed_paper", watchedSignal "b" "armed"]
  cards := fun _ => none
  trades := fun _ => none
  tradeGeneration := []
  advice := fun _ => none
  policies := fun _ => some policy
  outcomeReviews := fun _ => []
  distinct := by decide

def policy : Dict := [("policy_id", .str "p"), ("confidence", .float 1)]

/-- The number of rows on disk after a call that skipped. -/
def skippedRows : Except String (Files δ × Result δ) → Option ℕ
  | .ok (files, .skipped _) => files.jsonl.map List.length
  | _ => none

def writtenRows : Except String (Files δ × Result δ) → Option ℕ
  | .ok (files, .written _) => files.jsonl.map List.length
  | _ => none

omit [DecidableEq δ] in
theorem eq_skipped_of_skippedRows {r : Except String (Files δ × Result δ)} {n : ℕ}
    (h : skippedRows r = some n) : ∃ files existing stored,
      r = .ok (files, .skipped existing) ∧ files.jsonl = some stored ∧ stored.length = n := by
  obtain e | ⟨files, existing | summary⟩ := r
  · cases h
  · obtain ⟨stored, hstored, hlength⟩ := Option.map_eq_some_iff.1 h
    exact ⟨files, existing, stored, rfl, hstored, hlength⟩
  · cases h

omit [DecidableEq δ] in
theorem length_of_writtenRows {files : Files δ} {result : Result δ} {rows : List Dict} {n : ℕ}
    (h : writtenRows (.ok (files, result)) = some n) (hrows : files.jsonl = some rows) :
    rows.length = n := by
  cases result with
  | skipped existing => cases h
  | written summary =>
    rw [writtenRows, hrows] at h
    exact Option.some.inj h

/-- The log is exported whole, and then the export of the terminal source is skipped. -/
theorem full_export_stands_for_terminal_only :
    ∃ files existing, exportTrainingRows lowerCasePython sorted ⟨closedAndArmed policy, true, false⟩
        (runCalls lowerCasePython sorted {} [⟨closedAndArmed policy, false, false⟩]) =
          .ok (files, .skipped existing) ∧
      ¬ UpToDate lowerCasePython sorted ⟨closedAndArmed policy, true, false⟩ files := by
  have hskipped : skippedRows (exportTrainingRows lowerCasePython sorted
      ⟨closedAndArmed policy, true, false⟩
      (runCalls lowerCasePython sorted {} [⟨closedAndArmed policy, false, false⟩])) = some 2 := by
    decide +kernel
  have hforced : writtenRows (exportTrainingRows lowerCasePython sorted
      ⟨closedAndArmed policy, true, true⟩
      (runCalls lowerCasePython sorted {} [⟨closedAndArmed policy, false, false⟩])) = some 1 := by
    decide +kernel
  obtain ⟨files, existing, stored, hskip, hstored, hlength⟩ := eq_skipped_of_skippedRows hskipped
  refine ⟨files, existing, hskip, ?_⟩
  rintro ⟨forced, result, rows, stored', hcall, hrows, hstored', hperm⟩
  have hsame : stored = stored' := Option.some.inj (hstored.symm.trans hstored')
  rw [← (exportTrainingRows_skipped _ _ hskip).1] at hforced
  have hone : rows.length = 1 := length_of_writtenRows (hcall ▸ hforced) hrows
  have := hperm.length_eq
  rw [← hsame, hlength, hone] at this
  exact absurd this (by decide)

theorem keepsOrder_policy :
    KeepsOrder lowerCasePython (closedAndArmed policy) (closedAndArmed policy.reverse) := by
  have hsource : ∀ members p, prepare lowerCasePython (closedAndArmed members) = .ok p →
      p.sourceTerminal = [watchedSignal "a" "closed_paper"] ∧ p.outcomeReviews = [] := by
    intro members p h
    obtain ⟨signals, hsignals, h⟩ := bind_eq_ok.1 h
    obtain ⟨preliminary, -, h⟩ := bind_eq_ok.1 h
    cases hsignals
    cases h
    exact ⟨rfl, List.filterMap_eq_nil_iff.2 fun _ _ => rfl⟩
  intro p p' hp hp' sig hsig sig' hsig' _
  obtain ⟨hterminal, hreviews⟩ := hsource _ p hp
  obtain ⟨hterminal', hreviews'⟩ := hsource _ p' hp'
  rw [hterminal, List.mem_singleton] at hsig
  rw [hterminal', List.mem_singleton] at hsig'
  subst hsig hsig'
  have hrefl : ∀ keys members, ShownAlike keys members members := fun _ _ _ _ _ => rfl
  refine ⟨fun _ => rfl, hrefl _ _, hrefl _ _, hrefl _ _, hrefl _ _, hrefl _ _, hrefl _ _, ?_, ?_, ?_⟩
  · have hfields : ∀ key ∈ policyKeys, field policy key = field policy.reverse key := by
      decide +kernel
    exact fun key hkey _ => hfields key hkey
  · rw [Prepared.review, Prepared.review, hreviews, hreviews']
    exact hrefl _ _
  · rw [Prepared.review, Prepared.review, hreviews, hreviews']
    exact hrefl _ _

/-- The policy is written anew with its members in another order, and the export is skipped. -/
theorem skipped_export_upToDate_iff_policy :
    ∃ files existing, exportTrainingRows lowerCasePython sorted
        ⟨closedAndArmed policy.reverse, true, false⟩
        (runCalls lowerCasePython sorted {} [⟨closedAndArmed policy, true, false⟩]) =
          .ok (files, .skipped existing) ∧
      (UpToDate lowerCasePython sorted ⟨closedAndArmed policy.reverse, true, false⟩ files ↔
        ∃ last, lastWriting lowerCasePython sorted {} [⟨closedAndArmed policy, true, false⟩] =
            some last ∧
          (last.terminalOnly = true ∨ OnlyTerminalRows lowerCasePython last.sources)) := by
  have hskipped : skippedRows (exportTrainingRows lowerCasePython sorted
      ⟨closedAndArmed policy.reverse, true, false⟩
      (runCalls lowerCasePython sorted {} [⟨closedAndArmed policy, true, false⟩])) = some 1 := by
    decide +kernel
  obtain ⟨files, existing, _, hskip, _⟩ := eq_skipped_of_skippedRows hskipped
  refine ⟨files, existing, hskip, skipped_export_upToDate_iff lowerCasePython
    (fun _ _ h => h) (fun summary h => absurd h (by simp)) hskip fun last hlast => ?_⟩
  have hwritten : lastWriting lowerCasePython sorted {} [⟨closedAndArmed policy, true, false⟩] =
      some ⟨closedAndArmed policy, true, false⟩ := by
    have hafter : (afterCall lowerCasePython sorted ⟨closedAndArmed policy, true, false⟩ {}).2 =
        true := by
      decide +kernel
    rw [lastWriting, runFrom]
    simp only [List.foldl_cons, List.foldl_nil, hafter, if_true]
  rw [hwritten, Option.some.injEq] at hlast
  subst hlast
  exact keepsOrder_policy

end ResearchLab.TrainingExport
