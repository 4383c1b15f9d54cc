import Mathlib
import ResearchLab.Foundation.Checks
import ResearchLab.Foundation.JsonMembers
import ResearchLab.TrainingExport.Row

/-!
# Rows and the order of members

A training row looks its values up by their keys, so it does not depend on the order in which a
document lists its members, save where it shows a value as a text, a number or a list.
-/
namespace ResearchLab.TrainingExport
open Foundation Json PaperSignals

/-- A row as `json.dumps` with `sort_keys` writes it. -/
def sortedRow (row : Dict) : Dict := sortMembers (sortedValues row)

/-! ## What a row shows -/

/-- The values of these keys, if they have the same members, list them in the same order. -/
def ShownAlike (keys : List String) (members members' : Dict) : Prop :=
  ∀ key ∈ keys, SameOrder (field members key) (field members' key)

def contextKeys : List String := [
  "ready_strategy_id", "setup_id", "candidate_id", "source_validation_verdict", "search_family_id",
  "search_trial_id", "effective_n_trials", "geometry_profile_id", "geometry_profile_reason"]

def cardKeys : List String := ["text", "telegram_card_id"]

def tradeKeys : List String := [
  "farm_geometry_profile_id", "farm_geometry_profile_reason", "paper_trade_id",
  "paper_product_trade_id", "status", "runtime_id", "paper_generation_run_id",
  "paper_subject_generation_id", "terminal_lifecycle_event_id", "account_generation_id"]

def adviceKeys : List String := [
  "calculator_advice_id", "advisor_ref", "provider", "model", "prompt_version", "prompt_hash"]

def policyKeys : List String := [
  "policy_id", "execution_profile", "entry_profile", "exit_profile", "stop_profile",
  "max_hold_profile", "regime_hint", "reason_codes"]

def payloadKeys : List String := ["review_kind", "outcome_bucket", "actionability"]

def outcomeKeys : List String := [
  "reason", "terminal_reason", "outcome_evidence_kind", "result", "status", "lifecycle_schema"]

/-- The price of the first level. -/
def firstPrice : List Dict → Value
  | [] => .null
  | level :: _ => field level "price"

/-- Whatever the two rows show of the documents is written in the same order. -/
structure Shown (sig sig' : PaperActionSignal) (refs refs' : Refs) : Prop where
  price : SameOrder (firstPrice sig.takeProfitPlan) (firstPrice sig'.takeProfitPlan)
  context : ShownAlike contextKeys sig.validatorContext sig'.validatorContext
  outcome : ShownAlike outcomeKeys sig.outcome sig'.outcome
  review : ShownAlike ["diagnosis"] sig.review sig'.review
  card : ShownAlike cardKeys refs.telegramCard refs'.telegramCard
  trade : ShownAlike tradeKeys refs.paperTrade refs'.paperTrade
  advice : ShownAlike adviceKeys refs.calculatorAdvice refs'.calculatorAdvice
  policy : ShownAlike policyKeys refs.adaptivePolicy refs'.adaptivePolicy
  outcomeReview : ShownAlike ["review_id"] refs.outcomeReview refs'.outcomeReview
  payload : ShownAlike payloadKeys (membersOr (field refs.outcomeReview "payload"))
    (membersOr (field refs'.outcomeReview "payload"))

/-- The documents have the same members. -/
structure RefsAlike (refs refs' : Refs) : Prop where
  card : Alike (.obj refs.telegramCard : Value) (.obj refs'.telegramCard)
  trade : Alike (.obj refs.paperTrade : Value) (.obj refs'.paperTrade)
  advice : Alike (.obj refs.calculatorAdvice : Value) (.obj refs'.calculatorAdvice)
  policy : Alike (.obj refs.adaptivePolicy : Value) (.obj refs'.adaptivePolicy)
  outcomeReview : Alike (.obj refs.outcomeReview : Value) (.obj refs'.outcomeReview)

section
variable {py : Python} {d d' : Dict} {keys : List String} {key : String}

theorem ShownAlike.field_eq (h : ShownAlike keys d d') (halike : Alike (.obj d : Value) (.obj d')) :
    ∀ key ∈ keys, field d key = field d' key :=
  fun key hkey => h key hkey (halike.field key)

theorem field_setKey (v : Value) (set : String) :
    field (setKey set v d) key = if key = set then v else field d key := by
  induction d with
  | nil =>
    by_cases hkey : key = set
    · simp [setKey, field, hkey]
    · simp [setKey, field, hkey, Ne.symm hkey]
  | cons m d ih =>
    obtain ⟨k, w⟩ := m
    rw [setKey]
    by_cases hset : k = set
    · subst hset
      rw [if_pos rfl, field, field, List.find?_cons, List.find?_cons]
      by_cases hkey : key = k
      · simp [hkey]
      · simp [hkey, Ne.symm hkey]
    · rw [if_neg hset, field, List.find?_cons]
      rw [field] at ih
      by_cases hkey : k = key
      · simp [hkey, hkey ▸ hset, field]
      · simp only [hkey, decide_false, ih]
        split_ifs with hkeyset
        · rfl
        · simp [field, hkey]

/-- A signal has a field for each of its members, so a signal with the same members differs from it
in the dictionaries and the plan only. -/
theorem alike_toDict {sig sig' : PaperActionSignal}
    (h : Alike (.obj sig.toDict : Value) (.obj sig'.toDict)) :
    sig' = { sig with
      takeProfitPlan := sig'.takeProfitPlan
      validatorContext := sig'.validatorContext
      outcomeMemoryContext := sig'.outcomeMemoryContext
      outcome := sig'.outcome
      review := sig'.review } ∧
    Alike (.arr (sig.takeProfitPlan.map .obj) : Value) (.arr (sig'.takeProfitPlan.map .obj)) ∧
    Alike (.obj sig.validatorContext : Value) (.obj sig'.validatorContext) ∧
    Alike (.obj sig.outcome : Value) (.obj sig'.outcome) ∧
    Alike (.obj sig.review : Value) (.obj sig'.review) := by
  have hfields : ∀ key ∈ sig.toDict.map Prod.fst,
      Alike (field sig.toDict key) (field sig'.toDict key) := fun key _ => h.field key
  simp [PaperActionSignal.toDict, field, alike_floats] at hfields
  refine ⟨?_, by simp [hfields], by simp [hfields], by simp [hfields], by simp [hfields]⟩
  cases sig
  cases sig'
  simp_all

/-- The keys by which a dictionary is told to be an incident. -/
def evidenceKeys : List String := [
  "reason", "terminal_reason", "outcome_evidence_kind", "result", "status", "diagnosis",
  "market_data_status"]

theorem evidenceKind_congr (h : ∀ key ∈ evidenceKeys, field d key = field d' key) :
    evidenceKind py d = evidenceKind py d' := by
  simp only [evidenceKeys, List.forall_mem_cons] at h
  obtain ⟨hreason, hterminal, hkind, hresult, hstatus, hdiagnosis, hmarket, -⟩ := h
  unfold evidenceKind text
  rw [hreason, hterminal, hkind, hresult, hstatus, hdiagnosis, hmarket]

/-- Signals and documents with the same members, shown in the same order, give the same row up to the
order of its members. -/
theorem trainingRow_alike {sig sig' : PaperActionSignal} {refs refs' : Refs}
    (hsig : Alike (.obj sig.toDict : Value) (.obj sig'.toDict)) (hrefs : RefsAlike refs refs')
    (hshown : Shown sig sig' refs refs') :
    (trainingRow py sig refs).map sortedRow = (trainingRow py sig' refs').map sortedRow := by
  obtain ⟨hsame, hplan, hcontext, houtcome, hreview⟩ := alike_toDict hsig
  obtain ⟨showsPrice, showsContext, showsOutcome, showsReview, showsCard, showsTrade, showsAdvice,
    showsPolicy, showsOutcomeReview, showsPayload⟩ := hshown
  generalize sig'.takeProfitPlan = plan' at *
  generalize sig'.validatorContext = context' at *
  generalize sig'.outcomeMemoryContext = memory' at *
  generalize sig'.outcome = outcome' at *
  generalize sig'.review = review' at *
  subst hsame
  have hpayload := (hrefs.outcomeReview.field "payload").membersOr
  have haccount := (hrefs.trade.field "paper_account").membersOr
  have eqContext := showsContext.field_eq hcontext
  have eqOutcome := showsOutcome.field_eq houtcome
  have eqReview := showsReview.field_eq hreview
  have eqCard := showsCard.field_eq hrefs.card
  have eqTrade := showsTrade.field_eq hrefs.trade
  have eqAdvice := showsAdvice.field_eq hrefs.advice
  have eqPolicy := showsPolicy.field_eq hrefs.policy
  have eqOutcomeReview := showsOutcomeReview.field_eq hrefs.outcomeReview
  have eqPayload := showsPayload.field_eq hpayload
  have hprice : firstTp py sig.takeProfitPlan = firstTp py plan' := by
    generalize sig.takeProfitPlan = plan at *
    rw [alike_arr, List.forall₂_map_left_iff, List.forall₂_map_right_iff] at hplan
    cases hplan with
    | nil => rfl
    | cons hlevel _ =>
      have hsame := showsPrice (hlevel.field "price")
      rw [firstPrice, firstPrice] at hsame
      rw [firstTp, firstTp, hsame]
  have hkind : evidenceKind py (setKey "market_data_status" (field refs.paperTrade "status")
        (setKey "diagnosis" (field sig.review "diagnosis") sig.outcome)) =
      evidenceKind py (setKey "market_data_status" (field refs'.paperTrade "status")
        (setKey "diagnosis" (field review' "diagnosis") outcome')) := by
    refine evidenceKind_congr fun key hkey => ?_
    rw [field_setKey, field_setKey, field_setKey, field_setKey,
      eqTrade "status" (by decide), eqReview "diagnosis" (by decide)]
    split_ifs with hmarket hdiagnosis
    · rfl
    · rfl
    · refine eqOutcome key ?_
      have houter : key ∈ evidenceKeys ∧ key ≠ "market_data_status" ∧ key ≠ "diagnosis" :=
        ⟨hkey, hmarket, hdiagnosis⟩
      revert houter
      simp only [evidenceKeys, outcomeKeys, List.mem_cons, List.not_mem_nil]
      tauto
  -- what is looked up is the same, or has the same members
  have rawContext := fun key => hcontext.field key
  have rawOutcome := fun key => houtcome.field key
  have rawReview := fun key => hreview.field key
  have rawTrade := fun key => hrefs.trade.field key
  have rawPolicy := fun key => hrefs.policy.field key
  have rawAccount := fun key => haccount.field key
  have trueOutcome := fun key => (houtcome.field key).truthy
  have trueOutcomeReview := fun key => (hrefs.outcomeReview.field key).truthy
  simp only [Alike] at rawContext rawOutcome rawReview rawTrade rawPolicy rawAccount
  simp only [contextKeys, List.forall_mem_cons] at eqContext
  simp only [outcomeKeys, List.forall_mem_cons] at eqOutcome
  simp only [List.forall_mem_cons] at eqReview
  simp only [cardKeys, List.forall_mem_cons] at eqCard
  simp only [tradeKeys, List.forall_mem_cons] at eqTrade
  simp only [adviceKeys, List.forall_mem_cons] at eqAdvice
  simp only [policyKeys, List.forall_mem_cons] at eqPolicy
  simp only [List.forall_mem_cons] at eqOutcomeReview
  simp only [payloadKeys, List.forall_mem_cons] at eqPayload
  simp only [trainingRow, trainingRowId, geometry, hprice, hkind, eqContext, eqPolicy]
  cases py.int ((field context' "effective_n_trials").orElse (.int 0)) with
  | error e => rfl
  | ok effectiveNTrials =>
    cases elements ((field refs'.adaptivePolicy "reason_codes").orElse (.arr [])) with
    | error e => rfl
    | ok policyReasons =>
      refine congrArg Except.ok (congrArg sortMembers ?_)
      simp only [sortedValues, text, sorted_orElse, sorted, eqContext, eqOutcome, eqReview, eqCard,
        eqTrade, eqAdvice, eqPolicy, eqOutcomeReview, eqPayload, rawContext, rawOutcome, rawReview,
        rawTrade, rawPolicy, rawAccount, trueOutcome, trueOutcomeReview]
      simp only [List.cons.injEq, true_and, Prod.mk.injEq, and_true]
      exact congrArg Json.str (if_congr Iff.rfl rfl rfl)

/-- Whether a row is kept can be told from its sorted members. -/
theorem isMarketOutcome_sortedRow {sig : PaperActionSignal} {refs : Refs} {row : Dict}
    (h : trainingRow py sig refs = .ok row) :
    isMarketOutcome py (sortedRow row) = isMarketOutcome py row := by
  obtain ⟨effectiveNTrials, -, h⟩ := bind_eq_ok.1 h
  obtain ⟨policyReasons, -, h⟩ := bind_eq_ok.1 h
  have hkeys : ∀ key ∈ evidenceKeys, (field row key).sorted = field row key := by
    cases h
    simp [evidenceKeys, field, sorted]
  have hkind : evidenceKind py (sortedRow row) = evidenceKind py row := by
    refine evidenceKind_congr fun key hkey => ?_
    rw [sortedRow, field_sortMembers, field_sortedValues, hkeys key hkey]
  rw [isMarketOutcome, isMarketOutcome, hkind]

end
end ResearchLab.TrainingExport
