import ResearchLab.AccountLedger.Reconcile
import ResearchLab.Foundation.Machine
import Mathlib

/-!
# Orderly calls

What a log without hindsight promises, the calls that settle which openings they fund whatever the
results of their trades, and the invariant of the logs that they leave.
-/
namespace ResearchLab.AccountLedger
open Foundation Foundation.IntOrder

/-! ## What a log promises -/

/-- The account that is replayed up to an opening covers what is then reserved. -/
def Covers (model : MoneyModel) (log : List Event) : Prop :=
  ∀ before e, before ++ [e] <+: log → e.kind = .positionOpened →
    (replayFold model (before ++ [e])).reservedSum ≤ (replayFold model (before ++ [e])).balance

/-- A log that decides once for each scenario and each trade. -/
structure Decided (log : List Event) : Prop where
  scenarioOnce : log.Pairwise fun a b => a.kind = .positionOpened → b.kind = .positionOpened →
    a.scenarioId ≠ b.scenarioId
  tradeOnce : log.Pairwise fun a b => a.kind = .positionOpened → b.kind = .positionOpened →
    a.paperTradeId ≠ b.paperTradeId
  closing : ∀ before c, before ++ [c] <+: log → c.kind = .positionClosed →
    ∃ o ∈ before, o.kind = .positionOpened ∧ o.paperTradeId = c.paperTradeId ∧
      replayKey o < replayKey c
  rejection : log.Pairwise fun a b => a.kind = .allocationRejected → b.kind = .positionOpened →
    a.paperTradeId ≠ b.paperTradeId

/-- A log whose decisions could have been taken when they are dated. -/
structure Sound (model : MoneyModel) (log : List Event) : Prop extends Decided log where
  covers : Covers model (sortOn replayKey log)

/-! ## Orderly calls -/

section
variable (ids : Ids) (model : MoneyModel) (n : ℕ) (log cs : List Event)

/-- The candidates that the log does not have. -/
def news : List Event := cs.filter fun c => decide (Fresh log c)

/-- The first `n` new openings. -/
def funded : List Event := (openings (news log cs)).take n

/-- The trade is recorded or funded. -/
def Taken (c : Event) : Prop := c.paperTradeId ∈ tradesOf (openings log ++ funded n log cs)

instance decidableTaken (c : Event) : Decidable (Taken n log cs c) :=
  inferInstanceAs (Decidable (_ ∈ _))

/-- The new closings of such trades. -/
def settled : List Event :=
  (closings (news log cs)).filter fun c => decide (Taken n log cs c)

/-- The log with the events of the funded trades. -/
def taken : List Event := log ++ funded n log cs ++ settled n log cs

/-- The trades that are open on the date of an opening; one that closes on this date still is. -/
def overlapping (e : Event) : List Event :=
  (openings log).filter fun o => o.eventTs ≤ e.eventTs ∧
    ∀ c ∈ closings log, c.paperTradeId = o.paperTradeId → e.eventTs ≤ c.eventTs

/-- The deposit less all losses pays for the trades that are open on one date. -/
def Roomy : Prop :=
  ∀ e ∈ openings log,
    model.positionMarginUsdt * (overlapping log e).length + losses (closings log) ≤
      model.depositUsdt

instance decidableRoomy : Decidable (Roomy model log) := List.decidableBAll _ _

/-- The ids tell trades, scenarios and events apart, and trades are closed after they are opened. -/
structure Unambiguous : Prop where
  titled : ∀ c ∈ openings cs, c.paperTradeId ≠ ""
  scenario : ∀ a ∈ log ++ cs, ∀ c ∈ cs, a.paperTradeId = c.paperTradeId →
    a.scenarioId = c.scenarioId
  listedOnce : (cs.map Event.eventId).Nodup
  rejection : ∀ c ∈ cs, ∀ o ∈ openings cs, c.eventId ≠ (rejectionOf ids o).eventId
  later : ∀ c ∈ closings cs, ∀ o ∈ openings (log ++ cs), o.paperTradeId = c.paperTradeId →
    o.eventTs ≤ c.eventTs

/-- The account has margin for the first `n` new openings even if every new result is a loss and no
margin is released, and for none of the others even if every new result is a gain and all margin is
released; and the trades that it then holds do not crowd any date. -/
structure Funds : Prop where
  enough : 0 < n →
    model.positionMarginUsdt * ((active log).length + n) + losses (settled n log cs) ≤
      model.depositUsdt + booked log
  noMore : n < (openings (news log cs)).length →
    model.depositUsdt + booked log + gains (settled n log cs) <
      model.positionMarginUsdt * ((active (taken n log cs)).length + 1)
  notRejected : ∀ o ∈ funded n log cs, ∀ e ∈ log, e.kind = .allocationRejected →
    e.paperTradeId ≠ o.paperTradeId
  roomy : Roomy model (taken n log cs)

/-- Calls of `build_paper_account_ledger` on one log. -/
def orderlyCalls : Machine (List Event) (List Trade) where
  init log := log = []
  enabled log trades :=
    Unambiguous ids log (candidates ids model log trades) ∧
      ∃ n, Funds model n log (candidates ids model log trades)
  step log trades := (buildPaperAccountLedger ids model log trades).1

/-! ## The invariant -/

structure Inv : Prop extends Decided log where
  named : ∀ e ∈ log, e.eventId = ids.event e.kind e.paperTradeId e.scenarioId
  titled : ∀ e ∈ log, e.kind = .positionOpened → e.paperTradeId ≠ ""
  margin : ∀ e ∈ log, e.positionMarginUsdt = model.positionMarginUsdt
  pnl : ∀ e ∈ log, Micro e.pnl
  closedOnce : (tradesOf (closings log)).Nodup

end

section
variable {ids : Ids} {model : MoneyModel} {n : ℕ} {log cs : List Event}

theorem pairwise_snoc {R : Event → Event → Prop} {e : Event} (h : log.Pairwise R)
    (he : ∀ a ∈ log, R a e) : (log ++ [e]).Pairwise R :=
  List.pairwise_append.2 ⟨h, List.pairwise_singleton _ _, by simpa using he⟩

/-- A prefix of a log that has grown by one is a prefix of the old log or the whole. -/
theorem prefix_snoc {before : List Event} {e c : Event} (h : before ++ [c] <+: log ++ [e]) :
    before ++ [c] <+: log ∨ before = log ∧ c = e := by
  rcases List.prefix_concat_iff.1 h with heq | hinit
  · obtain ⟨hbefore, hc⟩ := List.append_inj' heq rfl
    exact .inr ⟨hbefore, List.singleton_inj.1 hc⟩
  · exact .inl hinit

/-- The log grows by an event that its trade allows. -/
theorem Inv.snoc {e : Event} (h : Inv ids model log)
    (hnamed : e.eventId = ids.event e.kind e.paperTradeId e.scenarioId)
    (hmargin : e.positionMarginUsdt = model.positionMarginUsdt) (hpnl : Micro e.pnl)
    (hopened : e.kind = .positionOpened → e.paperTradeId ≠ "" ∧
      (∀ e' ∈ log, e'.kind = .positionOpened →
        e'.scenarioId ≠ e.scenarioId ∧ e'.paperTradeId ≠ e.paperTradeId) ∧
      ∀ e' ∈ log, e'.kind = .allocationRejected → e'.paperTradeId ≠ e.paperTradeId)
    (hclosed : e.kind = .positionClosed → e.paperTradeId ∉ tradesOf (closings log) ∧
      ∃ o ∈ log, o.kind = .positionOpened ∧ o.paperTradeId = e.paperTradeId ∧
        replayKey o < replayKey e) :
    Inv ids model (log ++ [e]) where
  named := by simpa [or_imp, forall_and, hnamed] using h.named
  titled := by simpa [or_imp, forall_and] using ⟨h.titled, fun hkind => (hopened hkind).1⟩
  margin := by simpa [or_imp, forall_and, hmargin] using h.margin
  pnl := by simpa [or_imp, forall_and, hpnl] using h.pnl
  scenarioOnce := pairwise_snoc h.scenarioOnce fun e' he' hkind' hkind =>
    ((hopened hkind).2.1 e' he' hkind').1
  tradeOnce := pairwise_snoc h.tradeOnce fun e' he' hkind' hkind =>
    ((hopened hkind).2.1 e' he' hkind').2
  closing before c hinit hkind := by
    rcases prefix_snoc hinit with hinit | ⟨rfl, rfl⟩
    · exact h.closing before c hinit hkind
    · exact (hclosed hkind).2
  rejection := pairwise_snoc h.rejection fun e' he' hkind' hkind =>
    (hopened hkind).2.2 e' he' hkind'
  closedOnce := by
    rw [closings_append, closings_singleton, tradesOf, List.map_append]
    split_ifs with hkind
    · exact List.nodup_append.2 ⟨h.closedOnce, List.nodup_singleton _, fun k hk k' hk' heq =>
        (hclosed hkind).1 (List.mem_singleton.1 hk' ▸ heq ▸ hk)⟩
    · simpa [tradesOf] using h.closedOnce

/-- A rejection that has not been recorded yet, or has. -/
theorem Inv.addEvent {e : Event} (h : Inv ids model log)
    (hnamed : e.eventId = ids.event e.kind e.paperTradeId e.scenarioId)
    (hmargin : e.positionMarginUsdt = model.positionMarginUsdt) (hpnl : Micro e.pnl)
    (hkind : e.kind = .allocationRejected) : Inv ids model (addEvent log e) := by
  rw [AccountLedger.addEvent]
  split_ifs
  · exact h
  · exact h.snoc hnamed hmargin hpnl (by simp [hkind]) (by simp [hkind])

theorem Inv.dated (h : Inv ids model log) : Dated log where
  openedOnce := by
    rw [tradesOf, openings, List.Nodup, List.pairwise_map, List.pairwise_filter]
    simpa using h.tradeOnce
  closedOnce := h.closedOnce
  later c hc := by
    obtain ⟨hc, hkind⟩ := mem_closings.1 hc
    obtain ⟨before, after, rfl⟩ := List.append_of_mem hc
    obtain ⟨o, ho, hokind, htrade, hlt⟩ := h.closing before c ⟨after, by simp⟩ hkind
    exact ⟨o, mem_openings.2 ⟨List.mem_append_left _ ho, hokind⟩, htrade, hlt⟩

/-- Every active trade reserves the margin of the model. -/
theorem sum_margins {l : List Event}
    (h : ∀ e ∈ l, e.positionMarginUsdt = model.positionMarginUsdt) :
    (l.map Event.positionMarginUsdt).sum = model.positionMarginUsdt * l.length := by
  rw [List.map_congr_left h, List.map_const', List.sum_replicate, nsmul_eq_mul, mul_comm]

theorem Inv.available_eq (h : Inv ids model log) (hdeposit : Micro model.depositUsdt)
    (hmicro : Micro model.positionMarginUsdt) :
    (replay model log).availableMarginUsdt =
      model.depositUsdt + booked log - model.positionMarginUsdt * (active log).length := by
  rw [h.dated.available_eq hdeposit (fun e he => h.margin e he ▸ hmicro) h.pnl,
    sum_margins fun e he => h.margin e (mem_active.1 he).1.1]

/-- A log that crowds no date covers its openings. -/
theorem Inv.covers (h : Inv ids model log) (hmargin : 0 ≤ model.positionMarginUsdt)
    (hroomy : Roomy model log) : Covers model (sortOn replayKey log) := by
  intro before e hinit hkind
  have hsorted := sortOn_pairwise replayKey log
  have hshows := (h.dated.settles.of_prefix hinit).shows model
  have hsub : ∀ {a}, a ∈ before ++ [e] → a ∈ log := fun ha => mem_sortOn.1 (hinit.subset ha)
  have he : e ∈ openings log := mem_openings.2 ⟨hsub (by simp), hkind⟩
  have hnodup : (active (before ++ [e])).Nodup :=
    ((h.dated.settles.of_prefix hinit).openedOnce.of_map _).sublist (List.filter_sublist ..)
  have hoverlap : active (before ++ [e]) ⊆ overlapping log e := by
    intro o ho
    obtain ⟨⟨hmem, hokind⟩, hopen⟩ := mem_active.1 ho
    have hkey : replayKey o ≤ replayKey e := by
      rcases List.mem_append.1 hmem with hbefore | hlast
      · exact le_of_mem_before hsorted hinit hbefore
      · rw [List.mem_singleton.1 hlast]
    refine List.mem_filter.2 ⟨mem_openings.2 ⟨hsub hmem, hokind⟩, decide_eq_true ⟨?_, ?_⟩⟩
    · exact Prod.Lex.monotone_fst _ _ hkey
    · intro c hc htrade
      by_contra hlt
      -- A closing that is dated earlier has been replayed.
      have hbefore : c ∈ before := mem_before hsorted hinit (mem_sortOn.2 (mem_closings.1 hc).1)
        (Prod.Lex.toLex_lt_toLex.2 (.inl (not_le.1 hlt)))
      exact hopen (mem_tradesOf_closings.2
        ⟨c, List.mem_append_left _ hbefore, (mem_closings.1 hc).2, htrade⟩)
  have hlength : ((active (before ++ [e])).length : ℚ) ≤ (overlapping log e).length :=
    Nat.cast_le.2 (List.subperm_of_subset hnodup hoverlap).length_le
  have hlosses : losses (closings (before ++ [e])) ≤ losses (closings log) := by
    refine (losses_le (hinit.sublist.filter _)).trans_eq ?_
    exact ((closings_perm (sortOn_perm replayKey log)).map _).sum_eq
  have hbooked := (sum_pnl_bounds (closings (before ++ [e]))).1
  have hreserved : (replayFold model (before ++ [e])).reservedSum =
      model.positionMarginUsdt * (active (before ++ [e])).length := by
    rw [Account.reservedSum, hshows.reserved, List.map_map]
    exact sum_margins fun o ho => h.margin o (hsub (mem_active.1 ho).1.1)
  rw [hreserved, hshows.balance, booked]
  have hheld := mul_le_mul_of_nonneg_left hlength hmargin
  have hroom := hroomy e he
  linarith

/-! ## The candidates of a call -/

/-- What a candidate says about itself. -/
structure Drafted (ids : Ids) (model : MoneyModel) (log : List Event) (trades : List Trade)
    (c : Event) : Prop where
  named : c.eventId = ids.event c.kind c.paperTradeId c.scenarioId
  margin : c.positionMarginUsdt = model.positionMarginUsdt
  pnl : Micro c.pnl
  kind : c.kind ≠ .allocationRejected
  owner : c.kind = .positionOpened → c.paperTradeId = currentOwner ids log trades c.scenarioId

theorem drafted {trades : List Trade} {c : Event} (h : c ∈ candidates ids model log trades) :
    Drafted ids model log trades c := by
  obtain ⟨kind, trade, ts, reason, rfl, hkind, howner⟩ := of_mem_candidates h
  refine ⟨rfl, rfl, ?_, hkind, howner⟩
  cases hnet : trade.outcome.netPct with
  | none => simp [eventOf, Event.pnl, hnet, micro_zero]
  | some q => simpa [eventOf, Event.pnl, hnet] using micro_roundTo (model.notionalUsdt * q / 100)

section
variable {trades : List Trade}

/-- Openings are of the trades that the call funds. -/
def OpenedByOwner (ids : Ids) (log : List Event) (trades : List Trade) (log' : List Event) : Prop :=
  ∀ e ∈ log', e.kind = .positionOpened →
    e.paperTradeId = currentOwner ids log trades e.scenarioId

/-- The recorded owner of a scenario: the trade of its opening, if it has one. -/
theorem scenarioOwner_cases (events : List Event) (s : String) :
    (∃ e ∈ events, e.kind = .positionOpened ∧ e.scenarioId = s ∧
      scenarioOwner events s = e.paperTradeId) ∨
    (∀ e ∈ events, e.kind = .positionOpened → e.scenarioId ≠ s) ∧ scenarioOwner events s = "" := by
  cases hlast : (events.filter fun e => e.kind = .positionOpened ∧ e.scenarioId = s).getLast? with
  | none =>
    refine .inr ⟨fun e he hkind hscenario => ?_, by rw [scenarioOwner, hlast]; rfl⟩
    rw [List.getLast?_eq_none_iff, List.filter_eq_nil_iff] at hlast
    exact hlast e he (by simp [hkind, hscenario])
  | some e =>
    have hmem := List.mem_of_getLast? hlast
    simp only [List.mem_filter, decide_eq_true_eq] at hmem
    exact .inl ⟨e, hmem.1, hmem.2.1, hmem.2.2, by rw [scenarioOwner, hlast]; rfl⟩

/-- The funded trade of a scenario with a recorded opening. -/
theorem currentOwner_of_ne {s : String} (h : scenarioOwner log s ≠ "") :
    currentOwner ids log trades s = scenarioOwner log s := if_neg h

theorem Inv.opened_by_owner (h : Inv ids model log) : OpenedByOwner ids log trades log := by
  intro e he hkind
  rcases scenarioOwner_cases log e.scenarioId with ⟨e', he', hkind', hscenario, howner⟩ | ⟨hnone, -⟩
  · have heq : e' = e := by
      have hnodup :
          ((log.filter fun e => e.kind = .positionOpened).map Event.scenarioId).Nodup := by
        rw [List.Nodup, List.pairwise_map, List.pairwise_filter]
        simpa using h.scenarioOnce
      exact List.inj_on_of_nodup_map hnodup (by simp [he', hkind']) (by simp [he, hkind]) hscenario
    rw [heq] at howner
    rw [currentOwner_of_ne (howner ▸ h.titled e he hkind), howner]
  · exact absurd rfl (hnone e he hkind)

end

end

end ResearchLab.AccountLedger
