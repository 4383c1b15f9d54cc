import Mathlib
import ResearchLab.Foundation.Json
import ResearchLab.Simulation.Exits
import ResearchLab.TradePath.Scan

/-!
# Judged on its own trades

`evaluate_spec` writes one result for each symbol, strategy and row of parameters. A rejected row
is joined with the results of its run by the hash of the parameters alone.
-/
namespace ResearchLab.TradePath
open Foundation Simulation

/-! ## The runs of `evaluate_spec` -/

/-- A row of parameters as a dictionary. -/
abbrev ParamRow := List (String × Json ℚ)

/-- `{**defaults, **raw}`: a key keeps its place and takes the later value. -/
def mergeParams (defaults raw : ParamRow) : ParamRow :=
  defaults.map (fun d => (d.1, (raw.lookup d.1).getD d.2)) ++
    raw.filter fun r => r.1 ∉ defaults.map Prod.fst

def number? : Json ℚ → Option ℚ
  | .int n => some n
  | .float x => some x
  | .bool b => some (if b then 1 else 0)
  | _ => none

/-- `int(x)` of a number. -/
def truncate (x : ℚ) : ℤ := if 0 ≤ x then ⌊x⌋ else ⌈x⌉

/-- The keys that the simulators read of a row of parameters. -/
def simulationParams (row : ParamRow) : Params where
  exitMode :=
    match row.lookup "exit_mode" with
    | some (.str mode) => some mode
    | _ => none
  holdBars := ((row.lookup "hold_bars").bind number?).map truncate
  stopPct := (row.lookup "stop_pct").bind number?
  takePct := (row.lookup "take_pct").bind number?
  otherKeys := (row.map Prod.fst).filter (· ∉ ["exit_mode", "hold_bars", "stop_pct", "take_pct"])

/-- What the runs use besides: digests, texts of floats, upper case, and the strategies with their
defaults, data gates and annotated signals. -/
structure Host where
  sha1 : String → String
  sha256 : String → String
  repr : ℚ → List Char
  upper : String → String
  parameterDefaults : String → ParamRow
  missingRequiredData : String → List Candle → Bool
  signals : String → List Candle → ParamRow → Except String (List Signal)

/-- `params_hash`. -/
def Host.paramsHash (host : Host) (params : ParamRow) : String :=
  let blob := Json.dumps ⟨[',', ' '], [':', ' '], false, true, host.repr⟩ (.obj params)
  String.ofList ((host.sha1 (String.ofList blob)).toList.take 12)

/-- `_safe` of the classifier: the symbol as `unique_candidates` writes it. -/
def Host.safe (host : Host) (symbol : String) : String :=
  host.upper (String.ofList (symbol.toList.map fun c => if c = '-' ∨ c = '/' then '_' else c))

/-- A spec with the candles that its symbols load. -/
structure Spec where
  symbols : List String
  families : List String
  parameterGrid : List (String × List ParamRow)
  candles : String → Option (List Candle)
  costs : Costs
  maxRuns : ℤ := 0

def entryTimingMetrics (trades : List Trade) : Option EntryTiming :=
  let n : ℚ := trades.length
  if trades = [] then none
  else some
    { avgMfePct := roundTo 4 ((trades.map (·.mfePct)).sum / n)
      avgMaePct := roundTo 4 ((trades.map (·.maePct)).sum / n)
      avgCaptureRatio := roundTo 4 ((trades.map (·.captureOfMfe)).sum / n)
      lateEntryRate := roundTo 4 (trades.countP (fun t => t.mfePct < t.maePct) / n) }

def computeMetrics (trades : List Trade) : Metrics where
  nTrades := trades.length
  avgNetPct := averageNet 0 (trades.map (·.netPct))
  entryTiming := entryTimingMetrics trades

/-- The trades of a variant: none behind a closed data gate or after an error. -/
def variantTrades (host : Host) (spec : Spec) (family : String) (candles : List Candle)
    (params : ParamRow) : List Trade :=
  if host.missingRequiredData family candles then []
  else
    match (host.signals family candles params).bind fun signals =>
        simulateTrades host.sha256 candles signals (simulationParams params) spec.costs false with
    | .ok trades => trades
    | .error _ => []

def variantResult (host : Host) (spec : Spec) (symbol family : String) (candles : List Candle)
    (raw : ParamRow) : RunResult ParamRow :=
  let params := mergeParams (host.parameterDefaults family) raw
  let trades := variantTrades host spec family candles params
  ⟨symbol, family, params, computeMetrics trades, trades⟩

/-- `evaluate_spec`, which returns as soon as it has `max_runs` results. -/
def evaluateSpec (host : Host) (spec : Spec) : List (RunResult ParamRow) :=
  let results := spec.symbols.flatMap fun symbol => spec.families.flatMap fun family =>
    match spec.candles symbol with
    | none => []
    | some candles => ((spec.parameterGrid.lookup family).getD []).map
        (variantResult host spec symbol family candles)
  if spec.maxRuns = 0 then results else results.take (max 1 spec.maxRuns.toNat)

/-! ## The own result of a row -/

variable {host : Host} {runs : String → Option Spec} {table : List UniqueCandidate}
  {row : UniqueCandidate}

/-- The artifacts hold the results of the runs, in some order. -/
def HoldsRuns (host : Host) (runs : String → Option Spec) (artifacts : Artifacts ParamRow) : Prop :=
  ∀ label, Option.Rel (fun results spec => results.Perm (evaluateSpec host spec))
    (artifacts label) (runs label)

/-- The result is of the symbol, the strategy and the parameters of the row. -/
def IsOwn (host : Host) (row : UniqueCandidate) (res : RunResult ParamRow) : Prop :=
  host.safe res.symbol = text row.symbol ∧ res.family = text row.family ∧
    host.paramsHash res.params = text row.paramsHash

instance isOwnDecidable (host : Host) (row : UniqueCandidate) : DecidablePred (IsOwn host row) :=
  fun _ => inferInstanceAs (Decidable (_ ∧ _ ∧ _))

/-- The own result of a row in its own run. -/
def ownResult (host : Host) (runs : String → Option Spec) (row : UniqueCandidate) :
    Option (RunResult ParamRow) :=
  if row.label = "" then none
  else (runs row.label).bind fun spec => (evaluateSpec host spec).find? (IsOwn host row)

/-- The facts with the outcomes counted as the simulators record them. -/
def ownFacts (row : UniqueCandidate) : Option (RunResult ParamRow) → Facts
  | none => rowFacts row
  | some res => { tradePathFacts res with
      nTp := res.trades.countP fun t => t.outcome = .take
      nSl := res.trades.countP fun t => t.outcome = .stop
      nTimeout := res.trades.countP fun t => t.outcome = .timeExit }

/-- Whatever the order of the results in the files, every rejected row is joined with its own
result and judged by the facts of that. -/
structure JudgedOnOwnTrades (host : Host) (runs : String → Option Spec)
    (table : List UniqueCandidate) : Prop where
  joined : ∀ artifacts, HoldsRuns host runs artifacts → ∀ row ∈ loadRejectedUc table,
    joinedResult host.paramsHash artifacts row = ownResult host runs row
  judged : ∀ artifacts, HoldsRuns host runs artifacts →
    characterizeRejects host.paramsHash artifacts table =
      .ok ((loadRejectedUc table).map fun row =>
        characterize row (ownFacts row (ownResult host runs row)))

/-- Every result of the row's run that has its parameters is its own. -/
def OnlyOwn (host : Host) (runs : String → Option Spec) (row : UniqueCandidate) : Prop :=
  row.label ≠ "" → ∀ spec, runs row.label = some spec → ∀ res ∈ evaluateSpec host spec,
    host.paramsHash res.params = text row.paramsHash → ownResult host runs row = some res

/-- No trade of the row's own result left by its take. -/
def NoTake (host : Host) (runs : String → Option Spec) (row : UniqueCandidate) : Prop :=
  ∀ res, ownResult host runs row = some res → ∀ t ∈ res.trades, t.outcome ≠ .take

/-! ## When rows are judged on their own trades -/

theorem mem_of_ownResult {res : RunResult ParamRow} (h : ownResult host runs row = some res) :
    row.label ≠ "" ∧ ∃ spec, runs row.label = some spec ∧ res ∈ evaluateSpec host spec ∧
      IsOwn host row res := by
  unfold ownResult at h
  split_ifs at h with hlabel
  obtain ⟨spec, hspec, hfind⟩ := Option.bind_eq_some_iff.1 h
  have hown := List.find?_some hfind
  exact ⟨hlabel, spec, hspec, List.mem_of_find?_eq_some hfind, of_decide_eq_true hown⟩

/-- The artifacts as the runs write them. -/
def recorded (host : Host) (runs : String → Option Spec) : Artifacts ParamRow :=
  fun label => (runs label).map (evaluateSpec host)

theorem holdsRuns_recorded (host : Host) (runs : String → Option Spec) :
    HoldsRuns host runs (recorded host runs) := by
  intro label
  rw [recorded]
  cases runs label with
  | none => exact .none
  | some spec => exact .some (List.Perm.refl _)

/-- Another order in one of the files. -/
theorem HoldsRuns.reorder {artifacts : Artifacts ParamRow} (h : HoldsRuns host runs artifacts)
    {label : String} {spec : Spec} (hspec : runs label = some spec)
    {results : List (RunResult ParamRow)} (hperm : results.Perm (evaluateSpec host spec)) :
    HoldsRuns host runs (Function.update artifacts label (some results)) := by
  intro l
  obtain rfl | hl := eq_or_ne l label
  · rw [Function.update_self, hspec]
    exact .some hperm
  · rw [Function.update_of_ne hl]
    exact h l

theorem joinedResult_eq {artifacts : Artifacts ParamRow} (hlabel : row.label ≠ "") :
    joinedResult host.paramsHash artifacts row =
      (((artifacts row.label).getD []).filter fun res =>
        host.paramsHash res.params = text row.paramsHash).getLast? := by
  rw [joinedResult, indexRunResults, if_neg hlabel, indexResults_eq]

/-- A row is joined with its own result if no other has its parameters. -/
theorem joinedResult_own {artifacts : Artifacts ParamRow} (hruns : HoldsRuns host runs artifacts)
    (h : OnlyOwn host runs row) :
    joinedResult host.paramsHash artifacts row = ownResult host runs row := by
  by_cases hlabel : row.label = ""
  · rw [joinedResult, indexRunResults, if_pos hlabel, ownResult, if_pos hlabel]
  rw [joinedResult_eq hlabel]
  have hrel := hruns row.label
  cases hspec : runs row.label with
  | none =>
    rw [hspec] at hrel
    cases hresults : artifacts row.label with
    | none => rw [ownResult, if_neg hlabel, hspec]; rfl
    | some results => rw [hresults] at hrel; cases hrel
  | some spec =>
    rw [hspec] at hrel
    obtain ⟨results, hresults, hperm⟩ : ∃ results, artifacts row.label = some results ∧
        results.Perm (evaluateSpec host spec) := by
      cases hresults : artifacts row.label with
      | none => rw [hresults] at hrel; cases hrel
      | some results => rw [hresults] at hrel; cases hrel with | some hperm => exact ⟨_, rfl, hperm⟩
    rw [hresults, Option.getD_some]
    cases hlast : (results.filter fun res =>
        host.paramsHash res.params = text row.paramsHash).getLast? with
    | some res =>
      obtain ⟨hmem, hhash⟩ := List.mem_filter.1 (List.mem_of_getLast? hlast)
      exact (h hlabel spec hspec res (hperm.mem_iff.1 hmem) (of_decide_eq_true hhash)).symm
    | none =>
      cases hown : ownResult host runs row with
      | none => rfl
      | some res =>
        obtain ⟨-, spec', hspec', hmem, -, -, hhash⟩ := mem_of_ownResult hown
        obtain rfl : spec = spec' := Option.some.inj (hspec.symm.trans hspec')
        have hnone := List.filter_eq_nil_iff.1 (List.getLast?_eq_none_iff.1 hlast)
        exact absurd (decide_eq_true hhash) (hnone res (hperm.mem_iff.2 hmem))

/-- Where a result has the parameters of the row, some order of the file ends with it. -/
theorem exists_artifacts_joined {spec : Spec} (hlabel : row.label ≠ "")
    (hspec : runs row.label = some spec) {res : RunResult ParamRow}
    (hres : res ∈ evaluateSpec host spec) (hhash : host.paramsHash res.params = text row.paramsHash) :
    ∃ artifacts, HoldsRuns host runs artifacts ∧
      joinedResult host.paramsHash artifacts row = some res := by
  obtain ⟨before, after, heq⟩ := List.append_of_mem hres
  have hperm : (before ++ after ++ [res]).Perm (evaluateSpec host spec) := by
    rw [heq, List.append_assoc]
    have hswap : (after ++ [res]).Perm ([res] ++ after) := List.perm_append_comm
    exact hswap.append_left before
  refine ⟨_, (holdsRuns_recorded host runs).reorder hspec hperm, ?_⟩
  rw [joinedResult_eq hlabel, Function.update_self, Option.getD_some, List.filter_append]
  simp [hhash]

theorem outcomeName_ne_tp (o : Outcome) : outcomeName o ≠ "tp" := by
  cases o <;> decide

/-- The scan counts no take. -/
theorem tradePathFacts_nTp {π : Type} (res : RunResult π) : (tradePathFacts res).nTp = 0 := by
  refine List.countP_eq_zero.2 fun o ho => ?_
  obtain ⟨t, -, rfl⟩ := List.mem_map.1 ho
  simpa using outcomeName_ne_tp t.outcome

theorem tradePathFacts_nSl {π : Type} (res : RunResult π) :
    (tradePathFacts res).nSl = res.trades.countP fun t => t.outcome = .stop := by
  refine (List.countP_map ..).trans (List.countP_congr fun t _ => ?_)
  cases ho : t.outcome <;> simp [outcomeName, ho]

theorem tradePathFacts_nTimeout {π : Type} (res : RunResult π) :
    (tradePathFacts res).nTimeout = res.trades.countP fun t => t.outcome = .timeExit := by
  refine (List.countP_map ..).trans (List.countP_congr fun t _ => ?_)
  cases ho : t.outcome <;> simp [outcomeName, ho]

theorem ownFacts_eq_iff {own : Option (RunResult ParamRow)} :
    ownFacts row own = factsOf row own ↔ ∀ res, own = some res → ∀ t ∈ res.trades, t.outcome ≠ .take := by
  cases own with
  | none => simp [ownFacts, factsOf]
  | some res =>
    simp only [ownFacts, factsOf, Option.elim_some, ← tradePathFacts_nSl, ← tradePathFacts_nTimeout,
      Option.some.injEq, forall_eq']
    constructor
    · intro h t ht htake
      have hzero := congrArg Facts.nTp h
      rw [tradePathFacts_nTp] at hzero
      exact List.countP_eq_zero.1 hzero t ht (decide_eq_true htake)
    · intro h
      have hzero : (res.trades.countP fun t => t.outcome = .take) = (tradePathFacts res).nTp := by
        rw [tradePathFacts_nTp]
        exact List.countP_eq_zero.2 fun t ht => by simpa using h t ht
      rw [hzero]

/-- Rows are judged on their own trades just if no other result has their parameters and none of
their trades left by its take. -/
theorem judged_on_own_trades_iff (host : Host) (runs : String → Option Spec)
    (table : List UniqueCandidate) :
    JudgedOnOwnTrades host runs table ↔
      ∀ row ∈ loadRejectedUc table, OnlyOwn host runs row ∧ NoTake host runs row := by
  constructor
  · intro h row hrow
    have honly : OnlyOwn host runs row := by
      intro hlabel spec hspec res hres hhash
      obtain ⟨artifacts, hruns, hjoined⟩ := exists_artifacts_joined hlabel hspec hres hhash
      rw [← h.joined artifacts hruns row hrow, hjoined]
    refine ⟨honly, ?_⟩
    have hruns := holdsRuns_recorded host runs
    have hjudged := h.judged _ hruns
    rw [characterizeRejects_eq, Except.ok.injEq] at hjudged
    have hfacts := congrArg Characterization.facts (List.map_inj_left.1 hjudged row hrow)
    rw [judged, h.joined _ hruns row hrow] at hfacts
    exact ownFacts_eq_iff.1 hfacts.symm
  · intro h
    refine ⟨fun artifacts hruns row hrow => joinedResult_own hruns (h row hrow).1,
      fun artifacts hruns => ?_⟩
    rw [characterizeRejects_eq]
    refine congrArg Except.ok (List.map_congr_left fun row hrow => ?_)
    rw [judged, joinedResult_own hruns (h row hrow).1, ownFacts_eq_iff.2 (h row hrow).2]

/-- Parameters that two symbols share. -/
def takeRow : ParamRow := [("hold_bars", .int 1), ("take_pct", .int 2)]

/-- A host whose digest is that of `takeRow`, and whose strategy signals where there are two bars. -/
def pairHost : Host where
  sha1 _ := "5680090b6558442f8e266bf2bff00e3f494ebb0c"
  sha256 _ := ""
  repr _ := []
  upper := id
  parameterDefaults _ := []
  missingRequiredData _ _ := false
  signals _ candles _ := .ok (if candles.length = 2 then [⟨0, "long", none, none⟩] else [])

def pairSpec : Spec where
  symbols := ["BTC_USDT", "ETH_USDT"]
  families := ["breakout_retest"]
  parameterGrid := [("breakout_retest", [takeRow])]
  candles symbol :=
    if symbol = "BTC_USDT" then some [⟨0, 100, 100, 100, 100⟩, ⟨1, 100, 103, 100, 103⟩]
    else some [⟨0, 100, 100, 100, 100⟩]
  costs := ⟨7, 3⟩

def pairRuns (label : String) : Option Spec :=
  if label = "experiments/completed/pair" then some pairSpec else none

/-- The row of the first symbol, whose one trade left by its take. -/
def pairRow : UniqueCandidate where
  ucKey := "BTC_USDT::1H::breakout_retest::5680090b6558::nofp"
  symbol := some "BTC_USDT"
  timeframe := some "1H"
  family := some "breakout_retest"
  paramsHash := some "5680090b6558"
  nTrades := 1
  avgNetPct := 19 / 10
  regimeBucket := ""
  hardStatus := some ""
  validationStatus := some "REJECT"
  decision := some "REJECT"
  runDirLabel := some "experiments/completed/pair"
  updatedAt := 0

/-- The file in the other order. -/
def pairReversed : Artifacts ParamRow :=
  Function.update (recorded pairHost pairRuns) pairRow.label
    (some (evaluateSpec pairHost pairSpec).reverse)

/-- As written the row is judged on the other symbol, which has no trades; in the other order it is
judged on its own trade, whose take is not counted. -/
theorem shared_parameters_mix_symbols :
    (characterizeRejects pairHost.paramsHash (recorded pairHost pairRuns) [pairRow]).map
        (List.map fun c => c.rejectSubreason) = .ok [.insufficientData] ∧
      (characterizeRejects pairHost.paramsHash pairReversed [pairRow]).map
        (List.map fun c => (c.rejectSubreason, c.facts.nTp)) = .ok [(.tacticalCandidate, 0)] ∧
      ((ownResult pairHost pairRuns pairRow).map fun res => res.trades.map (·.outcome)) =
        some [.take] ∧
      ¬ JudgedOnOwnTrades pairHost pairRuns [pairRow] := by
  have hfirst : (characterizeRejects pairHost.paramsHash (recorded pairHost pairRuns) [pairRow]).map
      (List.map fun c => c.rejectSubreason) = .ok [.insufficientData] := by
    rw [characterizeRejects_eq]
    decide +kernel
  have hsecond : (characterizeRejects pairHost.paramsHash pairReversed [pairRow]).map
      (List.map fun c => (c.rejectSubreason, c.facts.nTp)) = .ok [(.tacticalCandidate, 0)] := by
    rw [characterizeRejects_eq]
    decide +kernel
  refine ⟨hfirst, hsecond, by decide +kernel, fun h => ?_⟩
  have hruns : HoldsRuns pairHost pairRuns pairReversed :=
    (holdsRuns_recorded _ _).reorder (if_pos rfl) (List.reverse_perm _)
  have hjudged := h.judged _ hruns
  rw [← h.judged _ (holdsRuns_recorded _ _)] at hjudged
  have hreason : (characterizeRejects pairHost.paramsHash pairReversed [pairRow]).map
      (List.map fun c => c.rejectSubreason) = .ok [.tacticalCandidate] := by
    rw [characterizeRejects_eq]
    decide +kernel
  rw [hjudged, hfirst] at hreason
  exact absurd hreason (by decide)

end ResearchLab.TradePath
