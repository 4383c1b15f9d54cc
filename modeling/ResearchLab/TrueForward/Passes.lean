import Mathlib
import ResearchLab.TrueForward.Split

/-!
# Passes, one after another

One pass turns what was collected up to a prefix of the candles into what is collected up to all of
them; by induction so does every sequence of passes.
-/
namespace ResearchLab.TrueForward
open Foundation Simulation

variable {env : Collector} {row : Row} {candles candles' : List Candle} {sig : Signal}

/-! ## The sums -/

/-- The sums have four decimals. -/
structure Rounded (row : Row) : Prop where
  net : roundTo 4 row.forwardNetSum = row.forwardNetSum
  mfe : roundTo 4 row.forwardMfeSum = row.forwardMfeSum
  mae : roundTo 4 row.forwardMaeSum = row.forwardMaeSum

theorem counting_nil : row.counting [] = row := by
  simp [Row.counting]

theorem counting_append (trades trades' : List ExitModeTrade) :
    row.counting (trades ++ trades') = (row.counting trades).counting trades' := by
  simp [Row.counting, add_assoc]

theorem counting_perm {trades trades' : List ExitModeTrade} (h : trades.Perm trades') :
    row.counting trades = row.counting trades' := by
  simp only [Row.counting, h.length_eq, (h.map _).sum_eq, h.countP_eq]

theorem add_eq_counting (hrow : Rounded row) {t : ExitModeTrade} (ht : t.reading.Of candles sig) :
    row.add t.reading = row.counting [t] := by
  simp only [Row.add, Row.counting, List.length_singleton, List.map_cons, List.map_nil,
    List.sum_cons, List.sum_nil, add_zero, List.countP_cons, List.countP_nil, zero_add,
    roundTo_add hrow.net ht.netPct_rounded, roundTo_add hrow.mfe ht.mfePct_rounded,
    roundTo_add hrow.mae ht.maePct_rounded]
  split_ifs <;> rfl

theorem Rounded.counting (hrow : Rounded row) {trades : List ExitModeTrade}
    (h : ∀ t ∈ trades, ∃ sig, t.reading.Of candles sig) : Rounded (row.counting trades) := by
  induction trades generalizing row with
  | nil => rwa [counting_nil]
  | cons t rest ih =>
    rw [show t :: rest = [t] ++ rest from rfl, counting_append]
    refine ih ?_ fun t' ht' => h t' (List.mem_cons_of_mem _ ht')
    obtain ⟨sig, ht⟩ := h t List.mem_cons_self
    rw [← add_eq_counting hrow ht]
    exact ⟨roundTo_roundTo _ _, roundTo_roundTo _ _, roundTo_roundTo _ _⟩

theorem accumulate_eq (hrow : Rounded row) {trades : List ExitModeTrade} (last : ℤ)
    (h : ∀ t ∈ trades, validateTrade env t = .ok () ∧ ∃ sig, t.reading.Of candles sig) :
    accumulate env row trades last = .ok { row.counting trades with
      lastCollectedTs := last
      status := if matureTrades ≤ row.forwardTrades + trades.length then .matured
        else .collecting } := by
  have hfold : trades.foldlM (fun row t => (validateTrade env t).map fun _ => row.add t.reading) row =
      .ok (row.counting trades) := by
    induction trades generalizing row with
    | nil => rw [counting_nil]; rfl
    | cons t rest ih =>
      obtain ⟨haccept, sig, ht⟩ := h t List.mem_cons_self
      have hrest : ∀ t' ∈ rest, ∃ sig, t'.reading.Of candles sig :=
        fun t' ht' => (h t' (List.mem_cons_of_mem _ ht')).2
      have hone : Rounded (row.counting [t]) :=
        hrow.counting fun t' ht' => ⟨sig, by rwa [List.mem_singleton.1 ht']⟩
      rw [show t :: rest = [t] ++ rest from rfl, counting_append, List.foldlM_append,
        List.foldlM_cons, haccept]
      simp only [Except.map, add_eq_counting hrow ht, List.foldlM_nil, bind, Except.bind,
        pure, Except.pure]
      exact ih hone fun t' ht' => h t' (List.mem_cons_of_mem _ ht')
  rw [accumulate, hfold]
  rfl

/-! ## Trades of one signal on growing candles -/

section
variable (hsteady : Steady env row) (hpre : candles <+: candles')
include hsteady hpre

theorem outcomeOf_grown {t : ExitModeTrade} (h : outcomeOf env row candles sig = some t) :
    outcomeOf env row candles' sig = some t := by
  refine outcomeOf_eq (WindowRun.trade_of_prefix (rowRun_causal hsteady) hpre ?_)
  rw [outcomeOf] at h
  cases htrade : (rowRun env row).trade candles sig with
  | error e => simp [htrade] at h
  | ok o =>
    rw [htrade] at h
    exact congrArg Except.ok h

theorem outcomeOf_of_complete (h : (sig.idx : ℤ) + collectHold env row < candles.length) :
    outcomeOf env row candles' sig = outcomeOf env row candles sig := by
  rw [← rowRun_hold hsteady] at h
  rw [outcomeOf, outcomeOf, WindowRun.trade_of_complete (rowRun_causal hsteady) hpre h]

theorem isPending_of_grown (h : isPending env row candles' sig = true) :
    isPending env row candles sig = true := by
  simp only [isPending, Bool.and_eq_true, Option.isNone_iff_eq_none, decide_eq_true_eq] at h ⊢
  have hlen := hpre.length_le
  refine ⟨?_, by omega⟩
  by_contra hne
  obtain ⟨t, ht⟩ := Option.ne_none_iff_exists'.1 hne
  rw [outcomeOf_grown hsteady hpre ht] at h
  exact Option.some_ne_none t h.1

/-- The trades of longer candles are those counted already and those of the pending signals. -/
theorem counted_grown (signals : List Signal) :
    (signals.filterMap (outcomeOf env row candles) ++
      (signals.filter (isPending env row candles)).filterMap (outcomeOf env row candles')).Perm
        (signals.filterMap (outcomeOf env row candles')) := by
  induction signals with
  | nil => exact .nil
  | cons sig rest ih =>
    cases hout : outcomeOf env row candles sig with
    | some t =>
      have hpending : isPending env row candles sig = false := by simp [isPending, hout]
      rw [List.filterMap_cons_some hout, List.filter_cons_of_neg (by simp [hpending]),
        List.filterMap_cons_some (outcomeOf_grown hsteady hpre hout), List.cons_append]
      exact ih.cons t
    | none =>
      rw [List.filterMap_cons_none hout]
      by_cases hpending : isPending env row candles sig = true
      · rw [List.filter_cons_of_pos hpending]
        cases hout' : outcomeOf env row candles' sig with
        | none =>
          rw [List.filterMap_cons_none hout', List.filterMap_cons_none hout']
          exact ih
        | some t =>
          rw [List.filterMap_cons_some hout', List.filterMap_cons_some hout']
          exact List.perm_middle.trans (ih.cons t)
      · -- the window is complete, so there is no trade later either
        have hcomplete : (sig.idx : ℤ) + collectHold env row < candles.length := by
          simp only [isPending, hout, Option.isNone_none, Bool.true_and, decide_eq_true_eq] at hpending
          omega
        rw [List.filter_cons_of_neg hpending, List.filterMap_cons_none
          ((outcomeOf_of_complete hsteady hpre hcomplete).trans hout)]
        exact ih

end

/-! ## The signals of a pass -/

theorem outcomeOf_stored : outcomeOf env row candles sig.stored = outcomeOf env row candles sig := by
  rw [outcomeOf, outcomeOf, rowRun_stored]

theorem reading_of_outcomeOf {t : ExitModeTrade} (h : outcomeOf env row candles sig = some t) :
    t.reading.Of candles sig := by
  rw [outcomeOf] at h
  cases htrade : (rowRun env row).trade candles sig with
  | error e => simp [htrade] at h
  | ok o =>
    rw [htrade] at h
    exact rowRun_reading (htrade.trans (congrArg Except.ok h))

theorem mem_forwardSignals (h : sig ∈ forwardSignals env row candles) :
    sig ∈ env.generateSignals candles row.family (rowParams env row) ∧
      row.boundaryTs < (barAt candles sig.idx).ts := by
  have := List.mem_filter.1 (mem_of_mem_lastByKey h)
  exact ⟨this.1, of_decide_eq_true this.2⟩

theorem forwardSignals_pairwise :
    (forwardSignals env row candles).Pairwise fun a b => keyOf candles a < keyOf candles b :=
  lastByKey_pairwise _ _

/-- Of signals with different keys, those stay that have no trade and no complete window. -/
theorem pendingForwardSignals_eq {signals : List Signal}
    (hkeys : signals.Pairwise fun a b => keyOf candles a < keyOf candles b)
    (hidx : ∀ sig ∈ signals, sig.idx < candles.length) :
    pendingForwardSignals candles signals (signals.filterMap (outcomeOf env row candles))
      (collectHold env row) = (signals.filter (isPending env row candles)).map (pendingOf candles) := by
  simp only [pendingForwardSignals]
  rw [lastByKey_eq_self (hkeys.filter _)]
  refine congrArg _ (List.filter_congr fun sig hsig => ?_)
  have hcompleted : keyOf candles sig ∈ (signals.filterMap (outcomeOf env row candles)).map
      (fun t => (toLex (t.reading.entryTs, t.reading.side) : ℤ ×ₗ String)) ↔
        outcomeOf env row candles sig ≠ none := by
    simp only [List.mem_map, List.mem_filterMap]
    constructor
    · rintro ⟨t, ⟨sig', hsig', ht⟩, hkey⟩
      have hof := reading_of_outcomeOf ht
      have hsame : keyOf candles sig' = keyOf candles sig := by
        rw [← hkey, keyOf, hof.entryTs_eq, hof.side_eq]
      have hnodup : (signals.map (keyOf candles)).Nodup := by
        rw [List.Nodup, List.pairwise_map]
        exact hkeys.imp fun hlt => hlt.ne
      rw [← List.inj_on_of_nodup_map hnodup hsig' hsig hsame, ht]
      exact Option.some_ne_none t
    · intro hne
      obtain ⟨t, ht⟩ := Option.ne_none_iff_exists'.1 hne
      have hof := reading_of_outcomeOf ht
      exact ⟨t, ⟨sig, hsig, ht⟩, by rw [keyOf, hof.entryTs_eq, hof.side_eq]⟩
  rw [Bool.eq_iff_iff]
  simp only [decide_eq_true_eq, hcompleted, isPending, Bool.and_eq_true, Option.isNone_iff_eq_none,
    not_not]
  exact ⟨fun h => ⟨h.2.2, h.2.1⟩, fun h => ⟨hidx sig hsig, h.2, h.1⟩⟩

/-- The row was registered at a beginning of the candles. -/
def BegunIn (row : Row) (candles : List Candle) : Prop :=
  ∃ start, start <+: candles ∧ row.boundaryTs = lastTs start

theorem BegunIn.boundary_le (h : BegunIn row candles) (hvalid : ValidCandles candles) :
    row.boundaryTs ≤ lastTs candles := by
  obtain ⟨start, hpre, heq⟩ := h
  rw [heq]
  by_cases hnil : start = []
  · by_cases hnil' : candles = []
    · rw [hnil, hnil']
    · rw [hnil]
      exact (hvalid.lastTs_pos hnil').le
  · have hpos := List.length_pos_iff.2 hnil
    have hlen := hpre.length_le
    rw [lastTs_eq hnil, ← barAt_grown hpre (by omega)]
    exact hvalid.ts_le_lastTs (by omega)

theorem collectedUpTo_collected (h : BegunIn row candles) (hvalid : ValidCandles candles) :
    collectedUpTo (collected env row candles) = lastTs candles := by
  change (if lastTs candles = 0 then row.boundaryTs else lastTs candles) = _
  by_cases hnil : candles = []
  · obtain ⟨start, hpre, heq⟩ := h
    subst hnil
    rw [heq, List.prefix_nil.1 hpre, ite_self]
  · rw [if_neg (hvalid.lastTs_pos hnil).ne']

/-- The signals at newer bars. -/
def newSignals (env : Collector) (row : Row) (candles candles' : List Candle) : List Signal :=
  lastByKey (keyOf candles') ((env.generateSignals candles' row.family (rowParams env row)).filter
    fun sig => lastTs candles < (barAt candles' sig.idx).ts)

theorem isPending_stored :
    isPending env row candles sig.stored = isPending env row candles sig := by
  rw [isPending, isPending, outcomeOf_stored]
  rfl

/-- The row of a pass with these trades counted, and these signals left. -/
theorem accumulate_collected (hrow : Rounded row) (hne : lastTs candles' ≠ row.boundaryTs)
    {counted : List ExitModeTrade} {start : List Candle}
    (hperm : (countedIn env row start ++ counted).Perm (countedIn env row candles'))
    (haccepted : ∀ t ∈ counted, validateTrade env t = .ok ())
    (hreading : ∀ t ∈ countedIn env row start ++ counted, ∃ sig, t.reading.Of candles' sig) :
    accumulate env { collected env row start with
      pendingSignals := ((forwardSignals env row candles').filter (isPending env row candles')).map
        (pendingOf candles') } counted (lastTs candles') = .ok (collected env row candles') := by
  have hcounting : (row.counting (countedIn env row start)).counting counted =
      row.counting (countedIn env row candles') := by
    rw [← counting_append, counting_perm hperm]
  have hlength := hperm.length_eq
  rw [List.length_append] at hlength
  have hrounded : Rounded (row.counting (countedIn env row start)) :=
    hrow.counting fun t ht => hreading t (List.mem_append_left _ ht)
  have hcounted : ∀ t ∈ counted, validateTrade env t = .ok () ∧ ∃ sig, t.reading.Of candles' sig :=
    fun t ht => ⟨haccepted t ht, hreading t (List.mem_append_right _ ht)⟩
  have hleft : ∀ pendingSignals, Rounded { collected env row start with pendingSignals } :=
    fun _ => ⟨hrounded.net, hrounded.mfe, hrounded.mae⟩
  refine (accumulate_eq (hleft _) _ hcounted).trans ?_
  refine congrArg Except.ok ?_
  rw [show collected env row candles' = { row.counting (countedIn env row candles') with
    lastCollectedTs := lastTs candles'
    status := if lastTs candles' = row.boundaryTs then row.status
      else if matureTrades ≤ row.forwardTrades + (countedIn env row candles').length then .matured
      else .collecting
    pendingSignals := ((forwardSignals env row candles').filter (isPending env row candles')).map
      (pendingOf candles') } from rfl, ← hcounting, if_neg hne, ← hlength, ← add_assoc]
  rfl

section
variable (hvalid : ValidCandles candles') (hpre : candles <+: candles')
  (hgen : CausalSignals fun candles => env.generateSignals candles row.family (rowParams env row))
  (hbegun : BegunIn row candles)
include hvalid hpre hgen hbegun

theorem forwardSignals_eq_append : forwardSignals env row candles' =
    forwardSignals env row candles ++ newSignals env row candles candles' :=
  forwardSignals_append hvalid hpre hgen (hbegun.boundary_le (hvalid.of_prefix hpre))

theorem passSignals_collected : passSignals env (collected env row candles) candles' =
    ((forwardSignals env row candles).filter (isPending env row candles)).map Signal.stored ++
      newSignals env row candles candles' := by
  have hidx : ∀ sig ∈ (forwardSignals env row candles).filter (isPending env row candles),
      sig.idx < candles.length := fun sig hsig =>
    hgen.idx_lt candles sig (mem_forwardSignals (List.mem_filter.1 hsig).1).1
  simp only [passSignals, collectedUpTo_collected hbegun (hvalid.of_prefix hpre)]
  change lastByKey (keyOf candles') (rehydratePendingSignals candles' ((List.filter _ _).map
    (pendingOf candles)) ++ List.filter _ _) = _
  rw [rehydrate_pending hvalid hpre hidx]
  have hkey : ∀ sig ∈ (forwardSignals env row candles).filter (isPending env row candles),
      keyOf candles' sig = keyOf candles sig := fun sig hsig => keyOf_grown hpre (hidx sig hsig)
  rw [lastByKey_append, lastByKey_eq_self]
  · rfl
  · rw [List.pairwise_map]
    refine (forwardSignals_pairwise.filter _).imp_of_mem fun ha hb hlt => ?_
    rwa [keyOf_stored, keyOf_stored, hkey _ ha, hkey _ hb]
  · intro a ha b hb
    obtain ⟨sig, hsig, rfl⟩ := List.mem_map.1 ha
    have hnew := of_decide_eq_true (List.mem_filter.1 hb).2
    have hold := (hvalid.of_prefix hpre).ts_le_lastTs (hidx sig hsig)
    rw [keyOf_stored, hkey sig hsig, keyOf, keyOf, Prod.Lex.toLex_lt_toLex]
    exact .inl (hold.trans_lt hnew)

/-- One pass over longer candles. -/
theorem collectOne_collected (hsteady : Steady env row) (haccepted : Accepted env row candles')
    (hrow : Rounded row) :
    ∃ counted, collectOne env (collected env row candles) candles' =
        .ok (collected env row candles', counted) ∧
      (countedIn env row candles ++ counted).Perm (countedIn env row candles') := by
  have hupTo : collectedUpTo (collected env row candles) = lastTs candles :=
    collectedUpTo_collected hbegun (hvalid.of_prefix hpre)
  by_cases hsame : candles = candles'
  · subst hsame
    refine ⟨[], ?_, by rw [List.append_nil]⟩
    rw [collectOne, if_pos]
    rw [hupTo]
    exact .inr fun h => (hvalid.new_bars_iff hpre).1 h rfl
  have hne : candles' ≠ [] := by
    rintro rfl
    exact hsame (List.prefix_nil.1 hpre)
  have hnew : ∃ bar ∈ candles', lastTs candles < bar.ts := (hvalid.new_bars_iff hpre).2 hsame
  set pending := (forwardSignals env row candles).filter (isPending env row candles) with hpending
  set new := newSignals env row candles candles' with hnewSignals
  have hgenerated : ∀ sig ∈ pending ++ new,
      sig ∈ env.generateSignals candles' row.family (rowParams env row) := by
    intro sig hsig
    rcases List.mem_append.1 hsig with hsig | hsig
    · have := (mem_forwardSignals (List.mem_filter.1 hsig).1).1
      exact (mem_generate_grown hpre hgen (hgen.idx_lt candles sig this)).2 this
    · exact (List.mem_filter.1 (mem_of_mem_lastByKey hsig)).1
  have hpass : passSignals env (collected env row candles) candles' =
      pending.map Signal.stored ++ new := passSignals_collected hvalid hpre hgen hbegun
  -- storing a signal changes neither its trade nor its place
  have hstored : ∀ f : Signal → Option ExitModeTrade, (∀ sig, f sig.stored = f sig) →
      (pending.map Signal.stored ++ new).filterMap f = (pending ++ new).filterMap f := by
    intro f hf
    rw [List.filterMap_append, List.filterMap_append, List.filterMap_map]
    exact congrArg (· ++ _) (List.filterMap_congr fun sig _ => hf sig)
  have hsim : simulate env (collected env row candles) candles' (pending.map Signal.stored ++ new) =
      .ok ((pending.map Signal.stored ++ new).filterMap (outcomeOf env row candles')) := by
    refine simulate_eq hvalid.wellFormed fun sig hsig => ?_
    rcases List.mem_append.1 hsig with hsig | hsig
    · obtain ⟨sig', hsig', rfl⟩ := List.mem_map.1 hsig
      exact hgen.side candles' sig' (hgenerated sig' (List.mem_append_left _ hsig'))
    · exact hgen.side candles' sig (hgenerated sig (List.mem_append_right _ hsig))
  have hperm : (countedIn env row candles ++
      (pending ++ new).filterMap (outcomeOf env row candles')).Perm (countedIn env row candles') := by
    rw [countedIn, countedIn, forwardSignals_eq_append hvalid hpre hgen hbegun, ← hnewSignals,
      List.filterMap_append, List.filterMap_append, ← List.append_assoc]
    exact (counted_grown hsteady hpre _).append_right _
  have hleft : pendingForwardSignals candles' (pending.map Signal.stored ++ new)
      ((pending.map Signal.stored ++ new).filterMap (outcomeOf env row candles')) (collectHold env row) =
      ((forwardSignals env row candles').filter (isPending env row candles')).map
        (pendingOf candles') := by
    rw [pendingForwardSignals_eq, forwardSignals_eq_append hvalid hpre hgen hbegun, ← hnewSignals]
    · -- whatever is pending now was pending before
      have hstill : (forwardSignals env row candles).filter (isPending env row candles') =
          pending.filter (isPending env row candles') := by
        rw [hpending, List.filter_filter]
        refine List.filter_congr fun sig _ => ?_
        cases h : isPending env row candles' sig with
        | true => rw [isPending_of_grown hsteady hpre h, Bool.and_true]
        | false => rw [Bool.false_and]
      have hcomp : isPending env row candles' ∘ Signal.stored = isPending env row candles' :=
        funext fun _ => isPending_stored
      rw [List.filter_append, List.filter_append, List.map_append, List.map_append, hstill,
        List.filter_map, hcomp, List.map_map]
      rfl
    · rw [← hpass]
      exact lastByKey_pairwise _ _
    · intro sig hsig
      rcases List.mem_append.1 hsig with hsig | hsig
      · obtain ⟨sig', hsig', rfl⟩ := List.mem_map.1 hsig
        exact hgen.idx_lt candles' sig' (hgenerated sig' (List.mem_append_left _ hsig'))
      · exact hgen.idx_lt candles' sig (hgenerated sig (List.mem_append_right _ hsig))
  refine ⟨(pending ++ new).filterMap (outcomeOf env row candles'), ?_, hperm⟩
  have hhold : collectHold env (collected env row candles) = collectHold env row := rfl
  rw [collectOne, if_neg (by
    rw [hupTo]
    exact not_or.2 ⟨hne, not_not.2 hnew⟩)]
  simp only [hpass, hsim, hhold, hleft]
  rw [hstored _ fun _ => outcomeOf_stored, accumulate_collected hrow _ hperm]
  · rfl
  · intro t ht
    obtain ⟨sig, hsig, hout⟩ := List.mem_filterMap.1 ht
    refine haccepted sig (hgenerated sig hsig) t ?_
    rw [trade_eq_outcomeOf hvalid.wellFormed (hgen.side candles' sig (hgenerated sig hsig)), hout]
  · intro t ht
    obtain ⟨sig, -, hout⟩ := List.mem_filterMap.1 (hperm.subset ht)
    exact ⟨sig, reading_of_outcomeOf hout⟩
  · obtain ⟨bar, hbar, hlt⟩ := hnew
    obtain ⟨i, hi, rfl⟩ := List.getElem_of_mem hbar
    rw [← barAt_eq_getElem hi] at hlt
    have hboundary := hbegun.boundary_le (hvalid.of_prefix hpre)
    exact ((hboundary.trans_lt hlt).trans_le (hvalid.ts_le_lastTs hi)).ne'

end

/-! ## Runs -/

theorem Accepted.of_prefix (h : Accepted env row candles') (hpre : candles <+: candles')
    (hgen : CausalSignals fun candles => env.generateSignals candles row.family (rowParams env row))
    (hsteady : Steady env row) : Accepted env row candles := by
  intro sig hsig t ht
  refine h sig ?_ t (WindowRun.trade_of_prefix (rowRun_causal hsteady) hpre ht)
  exact (mem_generate_grown hpre hgen (hgen.idx_lt candles sig hsig)).2 hsig

theorem BegunIn.of_prefix (h : BegunIn row candles) (hpre : candles <+: candles') :
    BegunIn row candles' := by
  obtain ⟨start, hstart, heq⟩ := h
  exact ⟨start, hstart.trans hpre, heq⟩

/-- Passes over candles that grow to the last ones. -/
theorem collectPasses_collected {passes : List (List Candle)} {final : List Candle}
    (hvalid : ValidCandles final) (hsteady : Steady env row) (haccepted : Accepted env row final)
    (hgen : CausalSignals fun candles => env.generateSignals candles row.family (rowParams env row))
    (hrow : Rounded row) (hbegun : BegunIn row candles)
    (hgrow : (candles :: (passes ++ [final])).Pairwise (· <+: ·)) :
    ∃ counted, collectPasses env (collected env row candles) (passes ++ [final]) =
        .ok (collected env row final, counted) ∧
      (countedIn env row candles ++ counted).Perm (countedIn env row final) := by
  induction passes generalizing candles with
  | nil =>
    have hpre : candles <+: final := List.rel_of_pairwise_cons hgrow List.mem_cons_self
    obtain ⟨counted, hone, hperm⟩ :=
      collectOne_collected hvalid hpre hgen hbegun hsteady haccepted hrow
    refine ⟨counted ++ [], ?_, by rwa [List.append_nil]⟩
    simp only [List.nil_append, collectPasses, hone]
    rfl
  | cons next rest ih =>
    have hpre : candles <+: next := List.rel_of_pairwise_cons hgrow List.mem_cons_self
    have hgrow' := (List.pairwise_cons.1 hgrow).2
    have hnext : next <+: final := List.rel_of_pairwise_cons hgrow' (by simp)
    obtain ⟨counted, hone, hperm⟩ := collectOne_collected (hvalid.of_prefix hnext) hpre hgen hbegun
      hsteady (haccepted.of_prefix hnext hgen hsteady) hrow
    obtain ⟨counted', hrest, hperm'⟩ := ih (hbegun.of_prefix hpre) hgrow'
    refine ⟨counted ++ counted', ?_, ?_⟩
    · simp only [List.cons_append, collectPasses, hone, hrest]
      rfl
    · rw [← List.append_assoc]
      exact (hperm.append_right counted').trans hperm'

/-- At its registration a candidate has collected nothing. -/
theorem collected_register {family exit : String} {params : Params} (hvalid : ValidCandles candles)
    (hgen : CausalSignals fun bars => env.generateSignals bars family
      (rowParams env (register family exit params candles))) :
    countedIn env (register family exit params candles) candles = [] ∧
      collected env (register family exit params candles) candles =
        register family exit params candles := by
  have hnone : forwardSignals env (register family exit params candles) candles = [] := by
    refine List.eq_nil_iff_forall_not_mem.2 fun sig hsig => ?_
    obtain ⟨hsig, hlt⟩ := mem_forwardSignals hsig
    exact absurd (hvalid.ts_le_lastTs (hgen.idx_lt candles sig hsig)) (not_le.2 hlt)
  have hcounted : countedIn env (register family exit params candles) candles = [] := by
    rw [countedIn, hnone, List.filterMap_nil]
  refine ⟨hcounted, ?_⟩
  have hboundary : lastTs candles = (register family exit params candles).boundaryTs := rfl
  rw [collected, hcounted, counting_nil, hnone, if_pos hboundary]
  rfl

/-! ## Where a signal is after a pass -/

/-- The trades of the bar and the side of a signal. -/
def tradesOfSignal (candles : List Candle) (sig : Signal) (trades : List ExitModeTrade) : ℕ :=
  trades.countP fun t => t.reading.entryTs = (barAt candles sig.idx).ts ∧ t.reading.side = sig.side

def pendingOfSignal (candles : List Candle) (sig : Signal) (pending : List PendingSignal) : ℕ :=
  pending.countP fun p => p.entryTs = (barAt candles sig.idx).ts ∧ p.side = sig.side

/-- A signal is counted once, or pending once, or its window is complete and has no trade. -/
def Accounted (env : Collector) (candles : List Candle) (row : Row) (counted : List ExitModeTrade)
    (sig : Signal) : Prop :=
  (tradesOfSignal candles sig counted = 1 ∧ pendingOfSignal candles sig row.pendingSignals = 0) ∨
    (tradesOfSignal candles sig counted = 0 ∧ pendingOfSignal candles sig row.pendingSignals = 1) ∨
    (tradesOfSignal candles sig counted = 0 ∧ pendingOfSignal candles sig row.pendingSignals = 0 ∧
      (sig.idx : ℤ) + collectHold env row < candles.length ∧
        simulate env row candles [sig] = .ok [])

/-- An exit depends on the bar and the side of its signal. -/
theorem rowRun_exit_congr {sig' : Signal} (hidx : sig.idx = sig'.idx) (hside : sig.side = sig'.side)
    (cap : ℕ) (entry : ℚ) : (rowRun env row).exit candles sig cap entry =
      (rowRun env row).exit candles sig' cap entry := by
  obtain ⟨idx, side, reason, regime⟩ := sig
  obtain ⟨idx', side', reason', regime'⟩ := sig'
  obtain rfl : idx = idx' := hidx
  obtain rfl : side = side' := hside
  rw [rowRun]
  cases gridMode env row with
  | none => rfl
  | some mode =>
    obtain ⟨rule, holdBars⟩ := mode
    simp only [modeRun]
    cases rule <;> rfl

/-- Whether a signal has a trade depends on its bar and its side. -/
theorem trade_eq_none_congr {sig' : Signal} (hidx : sig.idx = sig'.idx) (hside : sig.side = sig'.side)
    (hok : ∃ o, (rowRun env row).trade candles sig' = .ok o)
    (h : (rowRun env row).trade candles sig = .ok none) :
    (rowRun env row).trade candles sig' = .ok none := by
  obtain ⟨o, ho⟩ := hok
  rw [ho]
  rw [WindowRun.trade, ← hidx] at ho
  rw [WindowRun.trade] at h
  cases hw : holdingWindow candles sig.idx (rowRun env row).hold with
  | none =>
    simp only [hw] at ho
    rw [← Except.ok.inj ho]
  | some w =>
    simp only [hw] at h ho
    rw [rowRun_exit_congr hidx hside] at h
    split_ifs at h ho
    · rw [← Except.ok.inj ho]
    · obtain ⟨t, -, heq⟩ := map_eq_ok.1 h
      cases heq

section
variable (hvalid : ValidCandles candles)
  (hgen : CausalSignals fun candles => env.generateSignals candles row.family (rowParams env row))
include hvalid hgen

/-- The signal that stands for a bar and a side. -/
theorem exists_forwardSignal (hsig : sig ∈ env.generateSignals candles row.family (rowParams env row))
    (hafter : row.boundaryTs < (barAt candles sig.idx).ts) :
    ∃ rep ∈ forwardSignals env row candles, rep.idx = sig.idx ∧ rep.side = sig.side := by
  have hmem : sig ∈ (env.generateSignals candles row.family (rowParams env row)).filter
      fun sig => row.boundaryTs < (barAt candles sig.idx).ts :=
    List.mem_filter.2 ⟨hsig, decide_eq_true hafter⟩
  obtain ⟨rep, hrep, hkey⟩ : ∃ rep ∈ forwardSignals env row candles,
      keyOf candles rep = keyOf candles sig := exists_mem_lastByKey hmem
  have hts : (barAt candles rep.idx).ts = (barAt candles sig.idx).ts := congrArg (fun k => (ofLex k).1) hkey
  have hside : rep.side = sig.side := congrArg (fun k => (ofLex k).2) hkey
  exact ⟨rep, hrep, hvalid.ts_inj (hgen.idx_lt _ _ (mem_forwardSignals hrep).1)
    (hgen.idx_lt _ _ hsig) hts, hside⟩

theorem accounted_collected {counted : List ExitModeTrade}
    (hperm : counted.Perm (countedIn env row candles))
    (hsig : sig ∈ env.generateSignals candles row.family (rowParams env row))
    (hafter : row.boundaryTs < (barAt candles sig.idx).ts) :
    Accounted env candles (collected env row candles) counted sig := by
  obtain ⟨rep, hrep, hidx, hside⟩ := exists_forwardSignal hvalid hgen hsig hafter
  have hkey : ∀ {ts : ℤ} {side : String}, ts = (barAt candles sig.idx).ts ∧ side = sig.side ↔
      (toLex (ts, side) : ℤ ×ₗ String) = keyOf candles rep := by
    intro ts side
    rw [keyOf, hidx, hside]
    simp
  have htrades : tradesOfSignal candles sig counted =
      if (outcomeOf env row candles rep).isSome = true then 1 else 0 := by
    rw [tradesOfSignal, hperm.countP_eq, countedIn, List.countP_filterMap,
      countP_eq_of_key forwardSignals_pairwise hrep]
    · cases hout : outcomeOf env row candles rep with
      | none => rfl
      | some t =>
        have hof := reading_of_outcomeOf hout
        simp only [Option.map_some, Option.getD_some, Option.isSome_some, hof.entryTs_eq, hof.side_eq,
          hidx, hside, and_self, decide_true, if_true]
    · intro sig' hsig' hcount
      cases hout : outcomeOf env row candles sig' with
      | none => simp [hout] at hcount
      | some t =>
        have hof := reading_of_outcomeOf hout
        simp only [hout, Option.map_some, Option.getD_some, hof.entryTs_eq, hof.side_eq,
          decide_eq_true_eq] at hcount
        exact hkey.1 hcount
  have hpending : pendingOfSignal candles sig (collected env row candles).pendingSignals =
      if isPending env row candles rep = true then 1 else 0 := by
    change List.countP _ (((forwardSignals env row candles).filter (isPending env row candles)).map
      (pendingOf candles)) = _
    rw [List.countP_map, List.countP_filter, countP_eq_of_key forwardSignals_pairwise hrep]
    · simp only [Function.comp_apply, pendingOf, hidx, hside, and_self, decide_true, Bool.true_and]
    · intro sig' hsig' hcount
      simp only [Function.comp_apply, pendingOf, Bool.and_eq_true] at hcount
      exact hkey.1 (of_decide_eq_true hcount.1)
  have hwell : ∀ {s : Signal}, s.side = "long" ∨ s.side = "short" →
      (rowRun env row).trade candles s = .ok (outcomeOf env row candles s) :=
    fun h => trade_eq_outcomeOf hvalid.wellFormed h
  have hsides := hgen.side candles sig hsig
  rw [Accounted, htrades, hpending]
  cases hout : outcomeOf env row candles rep with
  | some t => exact .inl ⟨rfl, by simp [isPending, hout]⟩
  | none =>
    by_cases hwait : (candles.length : ℤ) ≤ rep.idx + collectHold env row
    · exact .inr (.inl ⟨rfl, by simp [isPending, hout, hwait]⟩)
    · refine .inr (.inr ⟨rfl, by simp [isPending, hout, hwait], ?_, ?_⟩)
      · rw [← hidx]
        exact not_le.1 hwait
      · have hrepTrade := hwell (hside ▸ hsides)
        rw [hout] at hrepTrade
        have htrade := trade_eq_none_congr hidx hside ⟨_, hwell hsides⟩ hrepTrade
        have hsingle : ∀ s ∈ [sig], s.side = "long" ∨ s.side = "short" :=
          fun s hs => List.mem_singleton.1 hs ▸ hsides
        have hnone : outcomeOf env (collected env row candles) candles sig = none := outcomeOf_eq htrade
        rw [simulate_eq hvalid.wellFormed hsingle, List.filterMap_cons_none hnone, List.filterMap_nil]

end

/-- A candidate has collected the same in passes as in a single pass at the end. -/
theorem passes_collect_as_one {family exit : String} {params : Params} {passes : List (List Candle)}
    {final : List Candle} (hregister : row = register family exit params candles)
    (hvalid : ValidCandles final)
    (hgen : CausalSignals fun bars => env.generateSignals bars row.family (rowParams env row))
    (hsteady : Steady env row) (hlarge : LargeWindows env row final)
    (hgrow : (candles :: (passes ++ [final])).Pairwise (· <+: ·)) :
    ∃ left counted counted', collectPasses env row (passes ++ [final]) = .ok (left, counted) ∧
      collectOne env row final = .ok (left, counted') ∧ counted.Perm counted' ∧
      (∀ t ∈ counted, row.boundaryTs < t.reading.entryTs) ∧
      ∀ sig ∈ env.generateSignals final row.family (rowParams env row),
        row.boundaryTs < (barAt final sig.idx).ts → Accounted env final left counted sig := by
  have hpre : candles <+: final := List.rel_of_pairwise_cons hgrow (by simp)
  have haccepted : Accepted env row final :=
    accepted_of_large hsteady hvalid.wellFormed (hgen.side final) hlarge
  have hrounded : Rounded row := by
    rw [hregister]
    exact ⟨roundTo_zero 4, roundTo_zero 4, roundTo_zero 4⟩
  have hbegun : BegunIn row candles := ⟨candles, List.prefix_refl _, by rw [hregister]; rfl⟩
  obtain ⟨hnone, hstart⟩ : countedIn env row candles = [] ∧ collected env row candles = row := by
    subst hregister
    exact collected_register (hvalid.of_prefix hpre) hgen
  obtain ⟨counted, hpasses, hperm⟩ :=
    collectPasses_collected hvalid hsteady haccepted hgen hrounded hbegun hgrow
  obtain ⟨counted', hone, hperm'⟩ :=
    collectOne_collected hvalid hpre hgen hbegun hsteady haccepted hrounded
  rw [hnone, List.nil_append] at hperm hperm'
  rw [hstart] at hpasses hone
  refine ⟨_, counted, counted', hpasses, hone, hperm.trans hperm'.symm, ?_, ?_⟩
  · intro t ht
    obtain ⟨sig, hsig, hout⟩ := List.mem_filterMap.1 (hperm.subset ht)
    rw [(reading_of_outcomeOf hout).entryTs_eq]
    exact (mem_forwardSignals hsig).2
  · exact fun sig hsig hafter => accounted_collected hvalid hgen hperm hsig hafter

/-- One long signal at the second bar. -/
def secondBar : Collector where
  sha256 := Sha256.sha256
  generateSignals candles _ _ := if 1 < candles.length then [{ idx := 1, side := "long" }] else []
  executableExitParams _ := {}

theorem causalSignals_secondBar (family : String) (params : Params) :
    CausalSignals fun bars => secondBar.generateSignals bars family params where
  idx_lt candles sig hsig := by
    simp only [secondBar] at hsig
    split_ifs at hsig with h
    · rwa [List.mem_singleton.1 hsig]
    · cases hsig
  side candles sig hsig := by
    simp only [secondBar] at hsig
    split_ifs at hsig
    · rw [List.mem_singleton.1 hsig]
      exact .inl rfl
    · cases hsig
  causal candles candles' i h := by
    have hlen := congrArg List.length h
    rw [List.length_take, List.length_take] at hlen
    by_cases hi : i = 1
    · subst hi
      have hiff : 1 < candles.length ↔ 1 < candles'.length := by omega
      simp only [secondBar, hiff]
    · simp only [secondBar]
      split_ifs <;> simp [Ne.symm hi]

/-- Flat bars at 100. -/
def flatBars (n : ℕ) : List Candle :=
  (List.range n).map fun (i : ℕ) =>
    { ts := i + 1, openPrice := 100, high := 100, low := 100, close := 100 }

/-- The parameters of one bar to hold, in this mode. -/
def oneBarParams (exitMode : Option String) : Params :=
  { exitMode, holdBars := some 1, stopPct := some 1, takePct := some 2 }

theorem validCandles_flatBars : ValidCandles (flatBars 4) where
  wellFormed := by decide +kernel
  ts_pos := by decide +kernel
  ascending := by decide +kernel

/-- The boundary is the first of the flat bars. -/
def flatRow (exitMode : Option String) : Row :=
  register "momentum_breakout" "baseline" (oneBarParams exitMode) (flatBars 1)

/-- The simulator of `hold_long` holds longer than the collector waits: the signal is neither counted
nor pending, and it has a trade. -/
theorem long_hold_is_lost :
    ValidCandles (flatBars 4) ∧
      CausalSignals (fun bars => secondBar.generateSignals bars "momentum_breakout"
        (oneBarParams (some "hold_long"))) ∧
      (collectPasses secondBar (flatRow (some "hold_long")) [flatBars 3, flatBars 4]).map
          (fun r => (r.1.forwardTrades, r.1.pendingSignals)) = .ok (0, []) ∧
      (flatRow (some "hold_long")).boundaryTs < (barAt (flatBars 4) 1).ts ∧
      (simulate secondBar (flatRow (some "hold_long")) (flatBars 4)
        [{ idx := 1, side := "long" }]).map List.length = .ok 1 :=
  ⟨validCandles_flatBars, causalSignals_secondBar _ _, by decide +kernel, by decide +kernel,
    by decide +kernel⟩

/-- Bars that rise by one each. -/
def risingBars (n : ℕ) : List Candle :=
  (List.range n).map fun (i : ℕ) =>
    { ts := i + 1, openPrice := 100 + i, high := 101 + i, low := 100 + i, close := 101 + i }

/-- A candidate of the grid's partial mode, registered at the first of the rising bars. -/
def halvesRow : Row :=
  register "momentum_breakout" "partial_tp"
    { holdBars := some 2, stopPct := some 1, takePct := some 2 } (risingBars 1)

/-- The signal is pending in the first pass, and sold in two halves later. -/
theorem passes_collect_as_one_risingBars : ∃ left counted counted',
    collectPasses secondBar halvesRow ([risingBars 2, risingBars 3] ++ [risingBars 5]) =
      .ok (left, counted) ∧
    collectOne secondBar halvesRow (risingBars 5) = .ok (left, counted') ∧
      counted.Perm counted' := by
  have hmode : gridMode secondBar halvesRow = some { rule := .partialTake 1 2 } := by decide +kernel
  have hvalid : ValidCandles (risingBars 5) :=
    ⟨by decide +kernel, by decide +kernel, by decide +kernel⟩
  have hsteady : Steady secondBar halvesRow := by
    simp only [Steady, hmode]
    intro h
    cases h
  have hlarge : LargeWindows secondBar halvesRow (risingBars 5) := by
    have hone : ∀ sig ∈ secondBar.generateSignals (risingBars 5) halvesRow.family
        (rowParams secondBar halvesRow), sig = { idx := 1, side := "long" } := by decide +kernel
    intro sig hsig cap entry hw
    rw [hone sig hsig] at hw ⊢
    have hwindow : holdingWindow (risingBars 5) 1 (collectHold secondBar halvesRow) =
        some (3, 101) := by decide +kernel
    obtain ⟨rfl, rfl⟩ : 3 = cap ∧ 101 = entry := by simpa [hwindow] using hw
    decide +kernel
  have hgrow : ([risingBars 1] ++ ([risingBars 2, risingBars 3] ++ [risingBars 5])).Pairwise
      (· <+: ·) := by decide +kernel
  obtain ⟨left, counted, counted', hpasses, hone, hperm, -⟩ := passes_collect_as_one rfl hvalid
    (causalSignals_secondBar _ _) hsteady hlarge hgrow
  exact ⟨left, counted, counted', hpasses, hone, hperm⟩

end ResearchLab.TrueForward
