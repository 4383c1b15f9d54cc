import ResearchLab.Invocations.Ledger
import Mathlib

/-!
# The file and the index agree

Each row that is recorded is a new event under a logical id of its own, and no start falls among
the errors that open a circuit. Then the index holds the rows of the file in their order, and one
latest row for each invocation. The two add up the same costs in different orders.
-/
namespace ResearchLab.Invocations
open Foundation

variable {δ : Type} {digest : Row → δ} {s : Roots δ} {r : Row}

/-- A list ends with so many provider errors. -/
def EndsWithErrors {α : Type} (status : α → String) (n : ℕ) (l : List α) : Prop :=
  n ≤ l.length ∧ ∀ x ∈ lastItems n l, status x = "provider_error"

instance decidableEndsWithErrors {α : Type} (status : α → String) (n : ℕ) (l : List α) :
    Decidable (EndsWithErrors status n l) := inferInstanceAs (Decidable (_ ∧ _))

/-- The rows of a role and a provider. -/
def rowsOf (file : List Row) (role provider : String) : List Row :=
  file.filter fun r => r.of role provider

/-- The finished ones among them. -/
def finishedOf (file : List Row) (role provider : String) : List Row :=
  file.filter fun r => r.of role provider ∧ r.finished

/-- What the index takes of a row as the file gives it: the row stands on one line, its event and
its invocation are new, a second start of a transport says what the first said, the starts keep
away from the errors of their role and provider, the tokens fit an integer of the index, and the
costs with that of the row have a total that their order does not reach. -/
structure Indexable (digest : Row → δ) (s : Roots δ) (r : Row) : Prop where
  oneLine : r.onOneLine = true
  tokens : fitsInteger r.totalTokens = true
  costs : Settled 4 ((logicalRows (s.file ++ [r])).map Row.costRub)
  event : ∀ k ∈ s.index.semanticKeys, k.eventDigest ≠ digest r
  invocation : r.uncorrelated = true → s.index.llmLatest.row (logicalId r) = none
  transport : r.uncorrelated = false → ∀ r' ∈ s.file, r'.uncorrelated = true →
    r'.permit.invocationId ≠ r.correlationId
  restart : r.uncorrelated = false → r.finished = false → ∀ current,
    s.index.llmLatest.row (logicalId r) = some current → current.eventPhase = .started →
      current = latestOf r
  startStatus : r.finished = false → r.status ∉ "accepted" :: retryableCallStatuses
  start : r.finished = false →
    ¬ EndsWithErrors Row.status 3 (finishedOf s.file r.permit.roleId r.permit.provider)
  failure : r.finished = true → r.status = "provider_error" →
    EndsWithErrors Row.status 2 (finishedOf s.file r.permit.roleId r.permit.provider) →
      EndsWithErrors Row.status 2 (rowsOf s.file r.permit.roleId r.permit.provider)

/-- Two roots that record the same calls, each of which the index can take. -/
def calls [DecidableEq δ] (digest : Row → δ) : Machine (Roots δ) Recording where
  init s := s = Roots.empty
  enabled s c := Indexable digest s c.row
  step s c := s.record digest c

/-! ## Errors at the end -/

theorem lastItems_append {α : Type} (n : ℕ) (l : List α) (x : α) :
    lastItems (n + 1) (l ++ [x]) = lastItems n l ++ [x] := by
  unfold lastItems
  rw [List.length_append, List.length_singleton, Nat.add_sub_add_right,
    List.drop_append_of_le_length (by omega)]

theorem endsWithErrors_append {α : Type} (status : α → String) (n : ℕ) (l : List α) (x : α) :
    EndsWithErrors status (n + 1) (l ++ [x]) ↔
      status x = "provider_error" ∧ EndsWithErrors status n l := by
  simp only [EndsWithErrors, lastItems_append, List.length_append, List.length_singleton,
    List.mem_append, List.mem_singleton]
  constructor
  · rintro ⟨hlen, hall⟩
    exact ⟨hall x (.inr rfl), by omega, fun y hy => hall y (.inl hy)⟩
  · rintro ⟨hx, hlen, hall⟩
    refine ⟨by omega, fun y hy => ?_⟩
    rcases hy with hy | rfl
    · exact hall y hy
    · exact hx

/-- The circuit is open when the latest three rows are errors. -/
theorem circuitOpen_iff {α : Type} (status : α → String) (l : List α) {ledger : Ledger}
    {role provider : String}
    (h : ledger.recent role provider = (lastItems circuitFailureLimit l).map status) :
    ledger.CircuitOpen role provider ↔ EndsWithErrors status 3 l := by
  have hlen : circuitFailureLimit ≤ ((lastItems circuitFailureLimit l).map status).length ↔
      3 ≤ l.length := by
    simp only [List.length_map, lastItems, List.length_drop, circuitFailureLimit]
    omega
  unfold Ledger.CircuitOpen EndsWithErrors
  rw [h, hlen]
  simp [circuitFailureLimit]

/-! ## The invariant -/

/-- What the file holds of an invocation: a call under its own id, or the kept row of a
transport. -/
def Holds (file : List Row) (k : String) (l : Latest) : Prop :=
  (∃ r ∈ file, r.uncorrelated = true ∧ r.permit.invocationId = k ∧ latestOf r = l) ∨
    ∃ r, (transportRows file).row k = some r ∧ latestOf r = l

structure Inv (digest : Row → δ) (s : Roots δ) : Prop where
  oneLine : ∀ r ∈ s.file, r.onOneLine = true
  keys : s.index.semanticKeys = s.file.map (semanticValues digest)
  digests : (s.file.map digest).Nodup
  startStatus : ∀ r ∈ s.file, r.finished = false → r.status ∉ "accepted" :: retryableCallStatuses
  circuit : ∀ role provider, EndsWithErrors Row.status 3 (finishedOf s.file role provider) ↔
    EndsWithErrors Row.status 3 (rowsOf s.file role provider)
  calls : ((s.file.filter Row.uncorrelated).map fun r => r.permit.invocationId).Nodup
  apart : ∀ r ∈ s.file, r.uncorrelated = true →
    (transportRows s.file).row r.permit.invocationId = none
  latest : ∀ k l, s.index.llmLatest.row k = some l ↔ Holds s.file k l
  costs : Settled 4 ((logicalRows s.file).map Row.costRub)

theorem readRows_eq (h : Inv digest s) : readRows s.file = s.file :=
  List.filter_eq_self.2 h.oneLine

theorem rowsOf_append (file : List Row) (role provider : String) (r : Row) :
    rowsOf (file ++ [r]) role provider =
      if r.of role provider then rowsOf file role provider ++ [r]
      else rowsOf file role provider := by
  by_cases h : r.of role provider = true <;> simp [rowsOf, List.filter_append, h]

theorem finishedOf_append (file : List Row) (role provider : String) (r : Row) :
    finishedOf (file ++ [r]) role provider =
      if r.of role provider ∧ r.finished then finishedOf file role provider ++ [r]
      else finishedOf file role provider := by
  by_cases h : r.of role provider = true <;> by_cases hf : r.finished = true <;>
    simp [finishedOf, List.filter_append, h, hf]

/-- An error after errors: the rows without the starts end with them when all rows do. -/
theorem finished_errors {file : List Row} {role provider : String}
    (hstart : ∀ r ∈ file, r.finished = false → r.status ∉ "accepted" :: retryableCallStatuses)
    (n : ℕ) (h : EndsWithErrors Row.status n (rowsOf file role provider)) :
    EndsWithErrors Row.status n (finishedOf file role provider) := by
  induction file using List.reverseRecOn generalizing n with
  | nil => simpa [rowsOf, finishedOf] using h
  | append_singleton file r ih =>
      have ih := ih fun r' hr' => hstart r' (List.mem_append_left _ hr')
      cases n with
      | zero => exact ⟨by omega, by simp [lastItems]⟩
      | succ n =>
          rw [rowsOf_append] at h
          rw [finishedOf_append]
          by_cases hof : r.of role provider = true
          · rw [if_pos hof] at h
            obtain ⟨herror, hn⟩ := (endsWithErrors_append _ _ _ _).1 h
            have hfinished : r.finished = true := by
              by_contra hf
              have hnot := hstart r (by simp) (by simpa using hf)
              simp [herror, retryableCallStatuses] at hnot
            rw [if_pos ⟨hof, hfinished⟩]
            exact (endsWithErrors_append _ _ _ _).2 ⟨herror, ih n hn⟩
          · rw [if_neg hof] at h
            rw [if_neg (by simp [hof])]
            exact ih (n + 1) h

theorem circuit_append (h : Inv digest s) (hr : Indexable digest s r) (role provider : String) :
    EndsWithErrors Row.status 3 (finishedOf (s.file ++ [r]) role provider) ↔
      EndsWithErrors Row.status 3 (rowsOf (s.file ++ [r]) role provider) := by
  rw [finishedOf_append, rowsOf_append]
  by_cases hof : r.of role provider = true
  swap
  · simp only [hof]
    exact h.circuit role provider
  have hsame : r.permit.roleId = role ∧ r.permit.provider = provider := by
    simpa [Row.of] using hof
  obtain ⟨rfl, rfl⟩ := hsame
  rw [if_pos hof]
  by_cases hf : r.finished = true
  · rw [if_pos ⟨hof, hf⟩, endsWithErrors_append, endsWithErrors_append]
    constructor
    · rintro ⟨herror, htwo⟩
      exact ⟨herror, hr.failure hf herror htwo⟩
    · rintro ⟨herror, htwo⟩
      exact ⟨herror, finished_errors h.startStatus 2 htwo⟩
  · have hf : r.finished = false := by simpa using hf
    rw [if_neg (by simp [hf]), endsWithErrors_append]
    constructor
    · exact fun herrors => absurd herrors (hr.start hf)
    · rintro ⟨herror, -⟩
      have hnot := hr.startStatus hf
      simp [herror, retryableCallStatuses] at hnot

/-! ## Invocations -/

theorem transportRows_append (file : List Row) (r : Row) :
    transportRows (file ++ [r]) = keepTransport (transportRows file) r := by
  simp [transportRows]

theorem keepTransport_uncorrelated {t : Table String Row} (h : r.uncorrelated = true) :
    keepTransport t r = t := by simp [keepTransport, h]

theorem keepTransport_row {t : Table String Row} (h : r.uncorrelated = false) (k : String) :
    (keepTransport t r).row k =
      if k = r.correlationId ∧ (t.row k = none ∨ r.eventPhase = .completed) then some r
      else t.row k := by
  unfold keepTransport
  rw [if_neg (by simp [h])]
  by_cases hk : k = r.correlationId
  · subst hk
    by_cases hkeep : t.row r.correlationId = none ∨ r.eventPhase = .completed
    · rw [if_pos hkeep, if_pos ⟨rfl, hkeep⟩, Table.upsert_row, if_pos rfl]
    · rw [if_neg hkeep, if_neg fun h => hkeep h.2]
  · have hother : ¬ (k = r.correlationId ∧ (t.row k = none ∨ r.eventPhase = .completed)) :=
      fun h => hk h.1
    rw [if_neg hother]
    split_ifs
    · rw [Table.upsert_row, if_neg hk]
    · rfl

theorem logicalId_of_uncorrelated (h : r.uncorrelated = true) :
    logicalId r = r.permit.invocationId := by
  have h : r.correlationId = "" := by simpa [Row.uncorrelated] using h
  simp [logicalId, h]

theorem logicalId_of_correlated (h : r.uncorrelated = false) : logicalId r = r.correlationId := by
  have h : r.correlationId ≠ "" := by simpa [Row.uncorrelated] using h
  simp [logicalId, h]

/-- The latest row of a logical id, after a start as before when it says the same. -/
theorem keepLatest_row (latest : Table String Latest) (r : Row) (k : String) :
    (keepLatest latest r).row k =
      if k = logicalId r ∧ ¬ ∃ l, latest.row k = some l ∧ l.eventPhase = .completed ∧
        r.eventPhase ≠ .completed then some (latestOf r) else latest.row k := by
  have hsuperseded : superseded latest r = true ↔ ∃ l, latest.row (logicalId r) = some l ∧
      l.eventPhase = .completed ∧ r.eventPhase ≠ .completed := by
    simp [superseded, Option.any_eq_true]
  unfold keepLatest
  by_cases hk : k = logicalId r
  · subst hk
    by_cases hstays : superseded latest r = true
    · rw [if_pos hstays, if_neg fun h => h.2 (hsuperseded.1 hstays)]
    · rw [if_neg hstays, if_pos ⟨rfl, fun h => hstays (hsuperseded.2 h)⟩, Table.replace_row,
        if_pos rfl]
  · by_cases hstays : superseded latest r = true
    · rw [if_pos hstays]
      exact (if_neg fun h => hk h.1).symm
    · rw [if_neg hstays, Table.replace_row, if_neg hk]
      exact (if_neg fun h => hk h.1).symm

/-- A new call is held under its own id. -/
theorem holds_call (h : r.uncorrelated = true) (file : List Row) (k : String) (l : Latest) :
    Holds (file ++ [r]) k l ↔
      Holds file k l ∨ k = r.permit.invocationId ∧ latestOf r = l := by
  unfold Holds
  rw [transportRows_append, keepTransport_uncorrelated h]
  constructor
  · rintro (⟨r', hr', hu, hid, hl⟩ | ht)
    · rcases List.mem_append.1 hr' with hr' | hr'
      · exact .inl (.inl ⟨r', hr', hu, hid, hl⟩)
      · obtain rfl := List.mem_singleton.1 hr'
        exact .inr ⟨hid.symm, hl⟩
    · exact .inl (.inr ht)
  · rintro ((⟨r', hr', hrest⟩ | ht) | ⟨rfl, hl⟩)
    · exact .inl ⟨r', List.mem_append_left _ hr', hrest⟩
    · exact .inr ht
    · exact .inl ⟨r, by simp, h, rfl, hl⟩

/-- A row of a transport changes what is held under its correlation id only. -/
theorem holds_transport (h : r.uncorrelated = false) (file : List Row) (k : String) (l : Latest) :
    Holds (file ++ [r]) k l ↔
      (∃ r' ∈ file, r'.uncorrelated = true ∧ r'.permit.invocationId = k ∧ latestOf r' = l) ∨
        ∃ r', (keepTransport (transportRows file) r).row k = some r' ∧ latestOf r' = l := by
  unfold Holds
  rw [transportRows_append]
  refine or_congr_left ⟨?_, ?_⟩
  · rintro ⟨r', hr', hu, hrest⟩
    rcases List.mem_append.1 hr' with hr' | hr'
    · exact ⟨r', hr', hu, hrest⟩
    · obtain rfl := List.mem_singleton.1 hr'
      simp [h] at hu
  · rintro ⟨r', hr', hrest⟩
    exact ⟨r', List.mem_append_left _ hr', hrest⟩

/-! ## The step -/

theorem Inv.empty : Inv digest (Roots.empty : Roots δ) where
  oneLine := by simp [Roots.empty]
  keys := rfl
  digests := List.nodup_nil
  startStatus := by simp [Roots.empty]
  circuit := fun _ _ => Iff.rfl
  calls := List.nodup_nil
  apart := by simp [Roots.empty]
  latest := by simp [Roots.empty, Holds, transportRows]
  costs := (by decide +kernel : Settled 4 ([] : List ℚ))

/-- A call enters the index under an id that nothing is held under. -/
theorem latest_call (h : Inv digest s) (hr : Indexable digest s r) (hu : r.uncorrelated = true)
    (k : String) (l : Latest) :
    (keepLatest s.index.llmLatest r).row k = some l ↔ Holds (s.file ++ [r]) k l := by
  have hnone := hr.invocation hu
  rw [holds_call hu, ← h.latest, keepLatest_row, logicalId_of_uncorrelated hu]
  rw [logicalId_of_uncorrelated hu] at hnone
  by_cases hk : k = r.permit.invocationId
  · subst hk
    simp [hnone]
  · simp [hk]

/-- A row of a transport takes the place of what was held for it, or says the same. -/
theorem latest_transport (h : Inv digest s) (hr : Indexable digest s r)
    (hu : r.uncorrelated = false) (k : String) (l : Latest) :
    (keepLatest s.index.llmLatest r).row k = some l ↔ Holds (s.file ++ [r]) k l := by
  have hcall : ¬ ∃ r' ∈ s.file, r'.uncorrelated = true ∧
      r'.permit.invocationId = r.correlationId := by
    rintro ⟨r', hr', hu', hid⟩
    exact hr.transport hu r' hr' hu' hid
  rw [holds_transport hu, keepLatest_row, logicalId_of_correlated hu]
  by_cases hk : k = r.correlationId
  swap
  · rw [if_neg fun hkeep => hk hkeep.1, h.latest, Holds]
    simp [keepTransport_row hu, hk]
  subst hk
  have hheld : ∀ l', s.index.llmLatest.row r.correlationId = some l' ↔
      ∃ r', (transportRows s.file).row r.correlationId = some r' ∧ latestOf r' = l' := by
    intro l'
    rw [h.latest, Holds]
    refine or_iff_right ?_
    rintro ⟨r', hr', hu', hid, -⟩
    exact hcall ⟨r', hr', hu', hid⟩
  have hrow := keepTransport_row (t := transportRows s.file) hu r.correlationId
  have hnot : ¬ ∃ r' ∈ s.file, r'.uncorrelated = true ∧
      r'.permit.invocationId = r.correlationId ∧ latestOf r' = l := by
    rintro ⟨r', hr', hu', hid, -⟩
    exact hcall ⟨r', hr', hu', hid⟩
  rw [or_iff_right hnot, hrow]
  rcases htransport : (transportRows s.file).row r.correlationId with _ | kept
  · have hnone : s.index.llmLatest.row r.correlationId = none := by
      by_contra hsome
      obtain ⟨l', hl'⟩ := Option.ne_none_iff_exists'.1 hsome
      obtain ⟨r', hr', -⟩ := (hheld l').1 hl'
      simp [htransport] at hr'
    simp [hnone]
  · have hlatest : s.index.llmLatest.row r.correlationId = some (latestOf kept) :=
      (hheld _).2 ⟨kept, htransport, rfl⟩
    by_cases hphase : r.eventPhase = .completed
    · simp [hphase]
    · have hstart : r.finished = false := by
        cases hp : r.eventPhase <;> simp_all [Row.finished]
      by_cases hkept : kept.eventPhase = .completed
      · simp [hlatest, hphase, hkept, latestOf]
      · -- both are starts, and the second says what the first said
        have hsame : latestOf kept = latestOf r := by
          refine hr.restart hu hstart _ ?_ ?_
          · rw [logicalId_of_correlated hu, hlatest]
          · cases hp : kept.eventPhase <;> simp_all [latestOf]
        simp [hlatest, hphase, hsame]

section
variable [DecidableEq δ] {c : Recording}

theorem record_file : (s.record digest c).file = s.file ++ [c.row] := by
  unfold Roots.record
  split <;> rfl

theorem record_index (h : fitsInteger c.row.totalTokens = true) :
    (s.record digest c).index = s.index.add digest c.row := by
  simp [Roots.record, indexRow, h]

end

theorem Inv.record [DecidableEq δ] (h : Inv digest s) (c : Recording) (hr : Indexable digest s c.row) :
    Inv digest (s.record digest c) := by
  have hfresh : digest c.row ∉ s.file.map digest := by
    intro hmem
    obtain ⟨r', hr', heq⟩ := List.mem_map.1 hmem
    refine hr.event (semanticValues digest r') ?_ heq
    rw [h.keys]
    exact List.mem_map_of_mem hr'
  have hindex : (s.record digest c).index = s.index.add digest c.row := record_index hr.tokens
  refine ⟨?_, ?_, ?_, ?_, ?_, ?_, ?_, ?_, ?_⟩
  all_goals simp only [record_file, hindex]
  · intro r hmem
    rcases List.mem_append.1 hmem with hmem | hmem
    · exact h.oneLine r hmem
    · obtain rfl := List.mem_singleton.1 hmem
      exact hr.oneLine
  · have hnew : ¬ (s.index.semanticKeys.any fun k =>
        k.keyValue = c.row.permit.invocationId ∧ k.eventDigest = digest c.row) = true := by
      intro hany
      obtain ⟨k, hk, heq⟩ := List.any_eq_true.1 hany
      exact hr.event k hk (of_decide_eq_true heq).2
    rw [Index.add, if_neg hnew, h.keys, List.map_append, List.map_singleton]
  · rw [List.map_append, List.map_singleton]
    simpa using List.Nodup.concat hfresh h.digests
  · intro r hmem
    rcases List.mem_append.1 hmem with hmem | hmem
    · exact h.startStatus r hmem
    · obtain rfl := List.mem_singleton.1 hmem
      exact hr.startStatus
  · exact circuit_append h hr
  · simp only [List.filter_append, List.map_append]
    by_cases hu : c.row.uncorrelated = true
    · have hid : c.row.permit.invocationId ∉
          (s.file.filter Row.uncorrelated).map fun r => r.permit.invocationId := by
        intro hmem
        obtain ⟨r', hr', heq⟩ := List.mem_map.1 hmem
        have hr' := List.mem_filter.1 hr'
        have hheld := (h.latest _ _).2 (.inl ⟨r', hr'.1, hr'.2, heq, rfl⟩)
        rw [← logicalId_of_uncorrelated hu, hr.invocation hu] at hheld
        cases hheld
      simpa [hu] using List.Nodup.concat hid h.calls
    · simpa [hu] using h.calls
  · intro r hmem hu
    simp only [transportRows_append]
    by_cases hc : c.row.uncorrelated = true
    · rw [keepTransport_uncorrelated hc]
      rcases List.mem_append.1 hmem with hmem | hmem
      · exact h.apart r hmem hu
      · obtain rfl := List.mem_singleton.1 hmem
        by_contra hsome
        obtain ⟨kept, hkept⟩ := Option.ne_none_iff_exists'.1 hsome
        have hheld := (h.latest _ _).2 (.inr ⟨kept, hkept, rfl⟩)
        rw [← logicalId_of_uncorrelated hc, hr.invocation hc] at hheld
        cases hheld
    · have hc : c.row.uncorrelated = false := by simpa using hc
      rcases List.mem_append.1 hmem with hmem | hmem
      · rw [keepTransport_row hc, if_neg fun hkeep => hr.transport hc r hmem hu hkeep.1]
        exact h.apart r hmem hu
      · obtain rfl := List.mem_singleton.1 hmem
        simp [hc] at hu
  · intro k l
    by_cases hu : c.row.uncorrelated = true
    · exact latest_call h hr hu k l
    · exact latest_transport h hr (by simpa using hu) k l
  · exact hr.costs

/-! ## Permits and summaries -/

theorem lastItems_map {α β : Type} (f : α → β) (n : ℕ) (l : List α) :
    lastItems n (l.map f) = (lastItems n l).map f := by
  simp [lastItems, List.map_drop]

/-- The three answers that a permit depends on. -/
theorem refusal_congr (env : Environment) {ledger ledger' : Ledger} (req : Request)
    (hduplicate : ∀ id, ledger.duplicateCompleted id = ledger'.duplicateCompleted id)
    (hretry : ∀ id, ledger.retryableAttempts id = ledger'.retryableAttempts id)
    (hcircuit : ∀ role provider, ledger.CircuitOpen role provider ↔
      ledger'.CircuitOpen role provider) :
    req.preflightInvocation env ledger = req.preflightInvocation env ledger' := by
  have hrefusal : req.refusal env ledger = req.refusal env ledger' := by
    simp only [Request.refusal, hduplicate, hretry, hcircuit]
  simp only [Request.preflightInvocation, hrefusal]

theorem duplicate_eq (h : Inv digest s) (id : String) :
    (plainLedger s.file).duplicateCompleted id = (indexedLedger s.index).duplicateCompleted id := by
  simp only [plainLedger, indexedLedger, readRows_eq h, h.keys, List.any_map]
  rw [Bool.eq_iff_iff, List.any_eq_true, List.any_eq_true]
  refine exists_congr fun r => and_congr_right fun hr => ?_
  by_cases hf : r.finished = true
  · simp only [semanticValues, Function.comp_apply, hf, and_true, decide_eq_true_eq]
    exact decide_eq_true_iff.symm
  · have hstatus := h.startStatus r hr (by simpa using hf)
    have hnot : r.status ≠ "accepted" := fun heq => hstatus (by simp [heq])
    simp [semanticValues, hf, hnot]

theorem retryable_eq (h : Inv digest s) (id : String) :
    (plainLedger s.file).retryableAttempts id = (indexedLedger s.index).retryableAttempts id := by
  simp only [plainLedger, indexedLedger, readRows_eq h, h.keys, List.countP_map]
  refine List.countP_congr fun r hr => ?_
  by_cases hf : r.finished = true
  · simp only [semanticValues, Function.comp_apply, hf, true_and, decide_eq_true_eq]
    exact decide_eq_true_iff.symm
  · have hstatus := h.startStatus r hr (by simpa using hf)
    have hnot : r.status ∉ retryableCallStatuses := fun hmem => hstatus (List.mem_cons_of_mem _ hmem)
    simp [semanticValues, hf, hnot]

theorem circuit_iff (h : Inv digest s) (role provider : String) :
    (plainLedger s.file).CircuitOpen role provider ↔
      (indexedLedger s.index).CircuitOpen role provider := by
  have hplain : (plainLedger s.file).recent role provider =
      (lastItems circuitFailureLimit (finishedOf s.file role provider)).map Row.status := by
    simp only [plainLedger, readRows_eq h, finishedOf]
  have hindexed : (indexedLedger s.index).recent role provider =
      (lastItems circuitFailureLimit (rowsOf s.file role provider)).map Row.status := by
    simp only [indexedLedger, h.keys, List.filter_map, lastItems_map, List.map_map, rowsOf]
    rfl
  rw [circuitOpen_iff _ _ hplain, circuitOpen_iff _ _ hindexed]
  exact h.circuit role provider

theorem summaryOf_perm {l l' : List Contribution} (h : l.Perm l')
    (hcosts : Settled 4 (l.map Contribution.costRub)) (events : ℕ) :
    summaryOf l events = summaryOf l' events := by
  have hcounts : ∀ f : Contribution → String, sortedCounts (l.map f) = sortedCounts (l'.map f) := by
    intro f
    have hperm := h.map f
    have hlabels : sortOn id (l.map f).dedup = sortOn id (l'.map f).dedup :=
      sortOn_id_congr (List.nodup_dedup _) (List.nodup_dedup _) fun a => by
        simp only [List.mem_dedup, hperm.mem_iff]
    simp only [sortedCounts, hlabels, hperm.count_eq]
  simp only [summaryOf, hcounts, h.length_eq, (h.map Contribution.totalTokens).sum_eq,
    hcosts.roundTo_floatSum_perm (h.map Contribution.costRub)]

def callEntry (r : Row) : String × Latest := (r.permit.invocationId, latestOf r)

def transportEntry (p : String × Row) : String × Latest := (p.1, latestOf p.2)

/-- The index has one row for each call and each transport of the file. -/
theorem entries_perm (h : Inv digest s) :
    ((s.file.filter Row.uncorrelated).map callEntry ++
      (transportRows s.file).entries.map transportEntry).Perm s.index.llmLatest.entries := by
  have hnodup : ((s.file.filter Row.uncorrelated).map callEntry ++
      (transportRows s.file).entries.map transportEntry).Nodup := by
    refine List.Nodup.of_map Prod.fst ?_
    rw [List.map_append, List.map_map, List.map_map, List.nodup_append]
    refine ⟨h.calls, (transportRows s.file).nodup_entries_map_fst, ?_⟩
    rintro _ hk k hk' rfl
    obtain ⟨r, hr, rfl⟩ := List.mem_map.1 hk
    obtain ⟨⟨k, r'⟩, hr', heq⟩ := List.mem_map.1 hk'
    have hr := List.mem_filter.1 hr
    obtain rfl : k = r.permit.invocationId := heq
    have hrow := Table.mem_entries.1 hr'
    rw [h.apart r hr.1 hr.2] at hrow
    cases hrow
  refine (List.perm_ext_iff_of_nodup hnodup (Table.nodup_entries _)).2 fun p => ?_
  obtain ⟨k, l⟩ := p
  rw [Table.mem_entries, h.latest, Holds, List.mem_append, List.mem_map, List.mem_map]
  refine or_congr ⟨?_, ?_⟩ ⟨?_, ?_⟩
  · rintro ⟨r, hr, heq⟩
    obtain ⟨rfl, rfl⟩ := Prod.mk.inj heq
    have hr := List.mem_filter.1 hr
    exact ⟨r, hr.1, hr.2, rfl, rfl⟩
  · rintro ⟨r, hr, hu, rfl, rfl⟩
    exact ⟨r, List.mem_filter.2 ⟨hr, hu⟩, rfl⟩
  · rintro ⟨⟨k', r⟩, hr, heq⟩
    obtain ⟨rfl, rfl⟩ := Prod.mk.inj heq
    exact ⟨r, Table.mem_entries.1 hr, rfl⟩
  · rintro ⟨r, hr, rfl⟩
    exact ⟨(k, r), Table.mem_entries.2 hr, rfl⟩

theorem summary_eq [DecidableEq δ] (h : Inv digest s) :
    plainSummary s.file = indexedSummary s.index := by
  have hperm := (entries_perm h).map fun p => p.2.contribution
  have hevents : (s.index.semanticKeys.map SemanticKey.eventDigest).dedup.length =
      s.file.length := by
    have hdigests : s.index.semanticKeys.map SemanticKey.eventDigest = s.file.map digest := by
      rw [h.keys, List.map_map]
      rfl
    rw [hdigests, h.digests.dedup, List.length_map]
  simp only [plainSummary, indexedSummary, readRows_eq h, hevents]
  have hcosts : ((logicalRows s.file).map contribution).map Contribution.costRub =
      (logicalRows s.file).map Row.costRub := by
    rw [List.map_map]
    rfl
  refine summaryOf_perm ?_ (hcosts ▸ h.costs) _
  rw [logicalRows, List.map_append, ← Table.entries_map_snd, ← Table.entries_map_snd, List.map_map, List.map_map]
  rwa [List.map_append, List.map_map, List.map_map] at hperm

/-- While every recorded row is one that the index takes as the file does, both answer every
preflight and give one summary. -/
theorem index_agrees_with_file [DecidableEq δ] (env : Environment)
    (h : (calls digest).Reachable s) : s.Agree env := by
  have hinv : Inv digest s := by
    refine h.invariant (P := Inv digest) (fun _ hs => ?_) fun s c _ hinv hc => hinv.record c hc
    rw [show _ = Roots.empty from hs]
    exact Inv.empty
  exact ⟨fun req => refusal_congr env req (duplicate_eq hinv) (retryable_eq hinv) (circuit_iff hinv),
    summary_eq hinv⟩

/-! ## Transports of one role -/

def sampleEnvironment : Environment where
  lower := id
  endpointIdentityFromUrl _ := ⟨"", "", none, "", "", false, ["missing_endpoint"]⟩
  digest _ := "new"

def samplePermit : Permit where
  invocationId := "llminv_0"
  roleId := "cheap"
  sourceRef := "sha256:0"
  inputHash := "0"
  provider := "alibaba"
  model := "model"
  allowed := true
  reason := "trace_started"
  createdAt := "t"
  providerClass := "transport"
  endpointIdentity := none
  boundaryChecks := ["safe_hash_only_v1", "response_correlation_v1"]
  identified := by decide

/-- An event of a transport. -/
def sampleEvent (correlationId status : String) (phase : EventPhase) : Recording where
  row := ⟨samplePermit, status, "", "", [], "scanner", correlationId, phase, false, 0, 0, 0, 0, 0,
    "t"⟩
  sealing := false

/-- The start and the end of a transport. -/
def sampleTransport (correlationId status : String) : List Recording :=
  [sampleEvent correlationId "started" .started, sampleEvent correlationId status .completed]

def sampleRequest : Request :=
  ⟨"cheap", "case", "1", ⟨"alibaba", "model", "Provider", true, "", ""⟩, false, [], "t"⟩

/-- Three transports that end with provider errors: the circuit is open in the file, and the
starts between the errors keep it closed in the index. -/
theorem starts_hide_errors :
    ¬ ∀ calls : List Recording,
      (calls.foldl (Roots.record id) (Roots.empty : Roots Row)).Agree sampleEnvironment := by
  intro h
  have hpermit := (h (sampleTransport "a" "provider_error" ++
    sampleTransport "b" "provider_error" ++ sampleTransport "c" "provider_error")).permits
    sampleRequest
  have hreason := congrArg Permit.reason hpermit
  revert hreason
  decide +kernel

/-- The end of a transport with its tokens and its cost. -/
def sampleEnd (correlationId : String) (tokens : ℤ) (cost : ℚ) : Recording where
  row :=
    { (sampleEvent correlationId "accepted" .completed).row with
      totalTokens := tokens
      costRub := cost }
  sealing := false

/-- Two transports that overlap: the later one ends first. -/
def overlappingTransports : List Recording :=
  [sampleEvent "a" "started" .started, sampleEvent "b" "started" .started,
    sampleEnd "b" 900 (1 / 4), sampleEnd "a" 1200 (31 / 100)]

/-- Their costs are added in one order in the file and in the other in the index. -/
theorem index_agrees_after_transports :
    ((calls id).run (Roots.empty : Roots Row) overlappingTransports).Agree sampleEnvironment := by
  refine index_agrees_with_file sampleEnvironment
    (Machine.reachable_run (M := calls id) overlappingTransports rfl ⟨?_, ?_, ?_, ?_, trivial⟩)
  all_goals
    refine ⟨by decide +kernel, by decide +kernel, by decide +kernel, by decide +kernel,
      by decide +kernel, by decide +kernel, ?_, by decide +kernel, by decide +kernel,
      by decide +kernel⟩
    intro _ hstart current hcurrent
  · cases hcurrent
  · cases hcurrent
  · cases hstart
  · cases hstart

end ResearchLab.Invocations
