import ResearchLab.AccountLedger.Orderly
import Mathlib

/-!
# No hindsight

A call that settles which openings it funds, whatever the results of its trades, decides the same
when it is repeated. A trade may arrive late, as long as the account could have held it among the
trades of its time.
-/
namespace ResearchLab.AccountLedger
open Foundation Foundation.IntOrder

section
variable {ids : Ids} {model : MoneyModel} {n : ℕ} {log cs : List Event}

/-! ## The loop -/

/-- The candidates of an orderly call that funds `n` openings. -/
structure Call (ids : Ids) (model : MoneyModel) (n : ℕ) (log : List Event) (trades : List Trade)
    (cs : List Event) : Prop where
  inv : Inv ids model log
  drafted : ∀ c ∈ cs, Drafted ids model log trades c
  sorted : cs.Pairwise fun a b => candidateKey a ≤ candidateKey b
  unambiguous : Unambiguous ids log cs
  funds : Funds model n log cs

/-- What became of a candidate: it is recorded, it is an opening that was turned away, or it closes
a trade that is not opened. -/
def Answered (ids : Ids) (n : ℕ) (log cs M : List Event) (c : Event) : Prop :=
  c.eventId ∈ M.map Event.eventId ∨
    (c.kind = .positionOpened ∧ n < (openings (news log cs)).length ∧
      (rejectionOf ids c).eventId ∈ M.map Event.eventId) ∨
    c.kind = .positionClosed ∧ ¬Taken n log cs c

/-- Where the loop stands after some candidates: it has taken the first openings, and the closings
of the trades that the call takes. -/
structure Stage (ids : Ids) (model : MoneyModel) (n : ℕ) (log cs done M : List Event) : Prop where
  inv : Inv ids model M
  grown : log <+: M
  opened : openings M = openings log ++ (openings (news log done)).take n
  closed : closings M =
    closings log ++ (closings (news log done)).filter fun c => decide (Taken n log cs c)
  source : ∀ e ∈ M, e ∈ log ∨ e ∈ done ∨
    ∃ c ∈ (openings (news log done)).drop n, e = rejectionOf ids c
  answered : ∀ c ∈ done, Answered ids n log cs M c

section
variable {trades : List Trade} {done M M' : List Event} {c : Event}

theorem Answered.grown (h : Answered ids n log cs M c) (hinit : M <+: M') :
    Answered ids n log cs M' c :=
  h.imp ((hinit.map _).subset ·) (Or.imp_left fun ⟨hkind, hmore, hmem⟩ =>
    ⟨hkind, hmore, (hinit.map _).subset hmem⟩)

theorem news_snoc_of_fresh (h : Fresh log c) : news log (done ++ [c]) = news log done ++ [c] := by
  simp [news, h]

theorem news_snoc_of_not_fresh (h : ¬Fresh log c) : news log (done ++ [c]) = news log done := by
  simp [news, h]

theorem openings_news_initial (h : done <+: cs) :
    openings (news log done) <+: openings (news log cs) := (h.filter _).filter _

theorem mem_of_mem_openings_news (h : c ∈ openings (news log cs)) :
    c ∈ cs ∧ c.kind = .positionOpened := by
  obtain ⟨hmem, hkind⟩ := mem_openings.1 h
  exact ⟨(List.mem_filter.1 hmem).1, hkind⟩

theorem take_of_prefix {α : Type*} {l l' : List α} (h : l <+: l') (hn : n ≤ l.length) :
    l'.take n = l.take n := by
  obtain ⟨rest, rfl⟩ := h
  exact List.take_append_of_le_length hn

theorem kind_of_mem_funded (h : c ∈ funded n log cs) : c ∈ cs ∧ c.kind = .positionOpened :=
  mem_of_mem_openings_news (List.mem_of_mem_take h)

@[simp] theorem openings_taken : openings (taken n log cs) = openings log ++ funded n log cs := by
  have hfunded : openings (funded n log cs) = funded n log cs :=
    List.filter_eq_self.2 fun o ho => by simpa using (kind_of_mem_funded ho).2
  have hsettled : openings (settled n log cs) = [] := by
    refine List.filter_eq_nil_iff.2 fun c hc => ?_
    have hkind := (mem_closings.1 (List.mem_filter.1 hc).1).2
    simp [hkind]
  rw [taken, openings_append, openings_append, hfunded, hsettled, List.append_nil]

@[simp] theorem closings_taken : closings (taken n log cs) = closings log ++ settled n log cs := by
  have hfunded : closings (funded n log cs) = [] := by
    refine List.filter_eq_nil_iff.2 fun o ho => ?_
    simp [(kind_of_mem_funded ho).2]
  have hsettled : closings (settled n log cs) = settled n log cs :=
    List.filter_eq_self.2 fun c hc => by
      simpa using (mem_closings.1 (List.mem_filter.1 hc).1).2
  rw [taken, closings_append, closings_append, hfunded, hsettled, List.append_nil]

namespace Call
variable (h : Call ids model n log trades cs)
include h

/-- The kind and the trade tell an event of the log or the call. -/
theorem same_id {a : Event} (ha : a ∈ log ∨ a ∈ cs) (hc : c ∈ cs) (hkind : a.kind = c.kind)
    (htrade : a.paperTradeId = c.paperTradeId) : a.eventId = c.eventId := by
  have hscenario := h.unambiguous.scenario a (List.mem_append.2 ha) c hc htrade
  have hnamed : a.eventId = ids.event a.kind a.paperTradeId a.scenarioId :=
    ha.elim (h.inv.named a) fun ha => (h.drafted a ha).named
  rw [hnamed, (h.drafted c hc).named, hkind, htrade, hscenario]

/-- Two openings are of two scenarios and two trades. -/
theorem openings_apart {a : Event} (ha : a ∈ log ∨ a ∈ cs) (hc : c ∈ cs)
    (hakind : a.kind = .positionOpened) (hkind : c.kind = .positionOpened)
    (hne : a.eventId ≠ c.eventId) :
    a.scenarioId ≠ c.scenarioId ∧ a.paperTradeId ≠ c.paperTradeId := by
  have htrade : a.paperTradeId ≠ c.paperTradeId := fun htrade =>
    hne (h.same_id ha hc (hakind.trans hkind.symm) htrade)
  refine ⟨fun hscenario => htrade ?_, htrade⟩
  have howner : a.paperTradeId = currentOwner ids log trades a.scenarioId :=
    ha.elim (h.inv.opened_by_owner a · hakind) fun ha => (h.drafted a ha).owner hakind
  rw [howner, (h.drafted c hc).owner hkind, hscenario]

/-- The opening of a trade stands before its closing. -/
theorem mem_done {o : Event} (hinit : done ++ [c] <+: cs) (ho : o ∈ cs)
    (hokind : o.kind = .positionOpened) (hkind : c.kind = .positionClosed)
    (htrade : o.paperTradeId = c.paperTradeId) : o ∈ done := by
  have hc : c ∈ cs := hinit.subset (by simp)
  have hts : o.eventTs ≤ c.eventTs := h.unambiguous.later c (mem_closings.2 ⟨hc, hkind⟩) o
    (mem_openings.2 ⟨List.mem_append_right _ ho, hokind⟩) htrade
  refine mem_before h.sorted hinit ho ?_
  rcases hts.lt_or_eq with hlt | heq
  · exact Prod.Lex.toLex_lt_toLex.2 (.inl hlt)
  · exact Prod.Lex.toLex_lt_toLex.2
      (.inr ⟨heq, Prod.Lex.toLex_lt_toLex.2 (.inl (by simp [hokind, hkind]))⟩)

end Call
end

/-! ## The margin on the way -/

section
variable {trades : List Trade} {done M : List Event} {c : Event}

theorem sublist_settled (hinit : done <+: cs) :
    ((closings (news log done)).filter fun c => decide (Taken n log cs c)).Sublist
      (settled n log cs) :=
  (((hinit.filter _).filter _).filter _).sublist

namespace Stage
variable (hs : Stage ids model n log cs done M)
include hs

theorem booked_bounds (hinit : done <+: cs) :
    booked log - losses (settled n log cs) ≤ booked M ∧
      booked M ≤ booked log + gains (settled n log cs) := by
  have hsub : ((closings (news log done)).filter fun c => decide (Taken n log cs c)).Sublist
      (settled n log cs) := sublist_settled hinit
  obtain ⟨hlow, hhigh⟩ :=
    sum_pnl_bounds ((closings (news log done)).filter fun c => decide (Taken n log cs c))
  have hlosses := losses_le hsub
  have hgains := gains_le hsub
  rw [booked, booked, hs.closed, List.map_append, List.sum_append]
  constructor <;> linarith

/-- What was active, and the openings since then. -/
theorem active_le :
    (active M).length ≤ (active log).length + (openings (news log done)).length := by
  rw [active, hs.opened, List.filter_append, List.length_append]
  refine Nat.add_le_add (List.Sublist.length_le ?_) ?_
  · refine List.monotone_filter_right _ fun o ho => ?_
    have hopen : o.paperTradeId ∉ tradesOf (closings M) := of_decide_eq_true ho
    refine decide_eq_true fun hmem => hopen ?_
    rw [hs.closed, tradesOf, List.map_append]
    exact List.mem_append_left _ hmem
  · exact (List.length_filter_le _ _).trans (List.length_take_le' _ _)

/-- The trades that the call leaves open are active once they are opened. -/
theorem le_active (hinit : done <+: cs) (hn : n ≤ (openings (news log done)).length) :
    (active (taken n log cs)).length ≤ (active M).length := by
  have hopened : openings (taken n log cs) = openings M := by
    rw [openings_taken, hs.opened, funded, take_of_prefix (openings_news_initial hinit) hn]
  rw [active, active, hopened]
  refine (List.monotone_filter_right _ fun o ho => ?_).length_le
  have hopen : o.paperTradeId ∉ tradesOf (closings (taken n log cs)) := of_decide_eq_true ho
  refine decide_eq_true fun hmem => hopen ?_
  rw [hs.closed, tradesOf, List.map_append] at hmem
  rw [closings_taken, tradesOf, List.map_append]
  refine List.mem_append.2 ((List.mem_append.1 hmem).imp id fun hnew => ?_)
  exact ((sublist_settled hinit).map _).subset hnew

variable (h : Call ids model n log trades cs) (hdeposit : Micro model.depositUsdt)
  (hmicro : Micro model.positionMarginUsdt) (hmargin : 0 ≤ model.positionMarginUsdt)
include h hdeposit hmicro hmargin

theorem grants (hinit : done <+: cs) (hn : (openings (news log done)).length < n) :
    ¬(replay model M).availableMarginUsdt < model.positionMarginUsdt := by
  have hcount : ((active M).length + 1 : ℚ) ≤ (active log).length + n := by
    have hle := hs.active_le
    exact_mod_cast (by omega : (active M).length + 1 ≤ (active log).length + n)
  have henough := h.funds.enough (by omega)
  have hbooked := (hs.booked_bounds hinit).1
  have hheld := mul_le_mul_of_nonneg_left hcount hmargin
  rw [hs.inv.available_eq hdeposit hmicro, not_lt]
  linarith

theorem refuses (hinit : done <+: cs) (hn : n ≤ (openings (news log done)).length)
    (hmore : n < (openings (news log cs)).length) :
    (replay model M).availableMarginUsdt < model.positionMarginUsdt := by
  have hcount : ((active (taken n log cs)).length : ℚ) ≤ (active M).length :=
    Nat.cast_le.2 (hs.le_active hinit hn)
  have hnoMore := h.funds.noMore hmore
  have hbooked := (hs.booked_bounds hinit).2
  have hheld := mul_le_mul_of_nonneg_left hcount hmargin
  rw [hs.inv.available_eq hdeposit hmicro]
  linarith

end Stage

/-! ## One candidate -/

/-- A recorded event that is not a rejection is of the log or a candidate. -/
theorem Stage.of_mem (hs : Stage ids model n log cs done M) (hinit : done <+: cs) {e : Event}
    (he : e ∈ M) (hkind : e.kind ≠ .allocationRejected) : e ∈ log ∨ e ∈ cs := by
  rcases hs.source e he with hlog | hdone | ⟨o, -, rfl⟩
  · exact .inl hlog
  · exact .inr (hinit.subset hdone)
  · exact absurd rfl hkind

namespace Stage
variable (hs : Stage ids model n log cs done M) (h : Call ids model n log trades cs)
  (hinit : done ++ [c] <+: cs)
include hs h hinit

/-- No candidate and no rejection of this call has the id of a later candidate. -/
theorem fresh (hfresh : Fresh log c) : Fresh M c := by
  intro hmem
  obtain ⟨e, he, hid⟩ := List.mem_map.1 hmem
  have hc : c ∈ cs := hinit.subset (by simp)
  rcases hs.source e he with hlog | hdone | ⟨o, ho, rfl⟩
  · exact hfresh (List.mem_map.2 ⟨e, hlog, hid⟩)
  · have hnodup := h.unambiguous.listedOnce.sublist (hinit.map Event.eventId).sublist
    rw [List.map_append] at hnodup
    exact (List.nodup_append.1 hnodup).2.2 _ (List.mem_map_of_mem hdone) _ (by simp) hid
  · have ho := mem_of_mem_openings_news (List.mem_of_mem_drop ho)
    exact h.unambiguous.rejection c hc o
      (mem_openings.2 ⟨hinit.subset (List.mem_append_left _ ho.1), ho.2⟩) hid.symm

/-- The log has no event of the kind and the trade of a new candidate. -/
theorem apart {e : Event} (hfresh : Fresh log c) (he : e ∈ M) (hkind : e.kind = c.kind) :
    e.eventId ≠ c.eventId ∧ e.paperTradeId ≠ c.paperTradeId := by
  have hc : c ∈ cs := hinit.subset (by simp)
  have hid : e.eventId ≠ c.eventId := fun hid =>
    hs.fresh h hinit hfresh (List.mem_map.2 ⟨e, he, hid⟩)
  have hmem := hs.of_mem ((List.prefix_append _ _).trans hinit) he (hkind ▸ (h.drafted c hc).kind)
  exact ⟨hid, fun htrade => hid (h.same_id hmem hc hkind htrade)⟩

/-- A granted opening is the first of its scenario and its trade. -/
theorem inv_opening (hfresh : Fresh log c) (hkind : c.kind = .positionOpened)
    (hn : (openings (news log done)).length < n) : Inv ids model (M ++ [c]) := by
  have hc : c ∈ cs := hinit.subset (by simp)
  have hd := h.drafted c hc
  refine hs.inv.snoc hd.named hd.margin hd.pnl (fun _ => ⟨?_, fun e he hekind => ?_,
    fun e he hekind => ?_⟩) (by simp [hkind])
  · exact h.unambiguous.titled c (mem_openings.2 ⟨hc, hkind⟩)
  · have hmem := hs.of_mem ((List.prefix_append _ _).trans hinit) he (by simp [hekind])
    exact h.openings_apart hmem hc hekind hkind
      (hs.apart h hinit hfresh he (hekind.trans hkind.symm)).1
  · have hfunded : c ∈ funded n log cs := by
      have hinitial := (openings_news_initial hinit : openings (news log (done ++ [c])) <+: _)
      rw [news_snoc_of_fresh hfresh, openings_append, openings_singleton, if_pos hkind] at hinitial
      exact (List.prefix_take_iff.2 ⟨hinitial, by simpa using hn⟩).subset (by simp)
    rcases hs.source e he with hlog | hdone | ⟨o, ho, -⟩
    · exact h.funds.notRejected c hfunded e hlog hekind
    · exact absurd hekind (h.drafted e (hinit.subset (List.mem_append_left _ hdone))).kind
    · rw [List.drop_eq_nil_of_le hn.le] at ho
      cases ho

/-- A new closing finds its trade closed nowhere. -/
theorem not_closed (hfresh : Fresh log c) (hkind : c.kind = .positionClosed) :
    c.paperTradeId ∉ tradesOf (closings M) := by
  intro hmem
  obtain ⟨e, he, hekind, htrade⟩ := mem_tradesOf_closings.1 hmem
  exact (hs.apart h hinit hfresh he (hekind.trans hkind.symm)).2 htrade

/-- When a closing has its turn, its trade is opened if it ever is. -/
theorem opened_iff (hkind : c.kind = .positionClosed) :
    c.paperTradeId ∈ tradesOf (openings M) ↔ Taken n log cs c := by
  have hinitial : openings (news log done) <+: openings (news log cs) :=
    openings_news_initial ((List.prefix_append _ _).trans hinit)
  rw [Taken, hs.opened, tradesOf, tradesOf, List.map_append, List.map_append, List.mem_append,
    List.mem_append]
  refine or_congr_right ⟨fun hmem => ((hinitial.take n).map _).subset hmem, fun hmem => ?_⟩
  obtain ⟨o, ho, htrade⟩ := List.mem_map.1 hmem
  obtain ⟨hocs, hokind⟩ := kind_of_mem_funded ho
  have hdone := h.mem_done hinit hocs hokind hkind htrade
  have hfresh := (List.mem_filter.1 (mem_openings.1 (List.mem_of_mem_take ho)).1).2
  have hbefore : o ∈ openings (news log done) :=
    mem_openings.2 ⟨List.mem_filter.2 ⟨hdone, hfresh⟩, hokind⟩
  have hnodup : (openings (news log cs)).Nodup :=
    ((h.unambiguous.listedOnce.of_map _).filter _).filter _
  refine List.mem_map.2 ⟨o, ?_, htrade⟩
  rw [funded] at ho
  obtain ⟨rest, hrest⟩ := hinitial
  rw [← hrest] at ho hnodup
  rcases List.mem_append.1 (List.take_append ▸ ho) with hfirst | hrest
  · exact hfirst
  · exact absurd rfl ((List.nodup_append.1 hnodup).2.2 o hbefore o (List.mem_of_mem_take hrest))

theorem inv_closing (hfresh : Fresh log c) (hkind : c.kind = .positionClosed)
    (htaken : Taken n log cs c) : Inv ids model (M ++ [c]) := by
  have hc : c ∈ cs := hinit.subset (by simp)
  have hd := h.drafted c hc
  refine hs.inv.snoc hd.named hd.margin hd.pnl (by simp [hkind]) fun _ =>
    ⟨hs.not_closed h hinit hfresh hkind, ?_⟩
  obtain ⟨o, ho, hokind, htrade⟩ := mem_tradesOf_openings.1 ((hs.opened_iff h hinit hkind).2 htaken)
  have hmem := hs.of_mem ((List.prefix_append _ _).trans hinit) ho (by simp [hokind])
  have hts : o.eventTs ≤ c.eventTs := h.unambiguous.later c (mem_closings.2 ⟨hc, hkind⟩) o
    (mem_openings.2 ⟨List.mem_append.2 hmem, hokind⟩) htrade
  refine ⟨o, ho, hokind, htrade, ?_⟩
  rcases hts.lt_or_eq with hlt | heq
  · exact Prod.Lex.toLex_lt_toLex.2 (.inl hlt)
  · have horder : o.kind.replayOrder < c.kind.replayOrder := by
      simp [hokind, hkind, EventKind.replayOrder]
    exact Prod.Lex.toLex_lt_toLex.2 (.inr ⟨heq, Prod.Lex.toLex_lt_toLex.2 (.inl horder)⟩)

end Stage

/-- The turn of a candidate. -/
theorem Stage.turn {log' : List Event} (hs : Stage ids model n log cs done M)
    (hinv : Inv ids model log') (hgrown : M <+: log')
    (hopened : openings log' = openings log ++ (openings (news log (done ++ [c]))).take n)
    (hclosed : closings log' = closings log ++
      (closings (news log (done ++ [c]))).filter fun c => decide (Taken n log cs c))
    (hsource : ∀ e ∈ log', e ∈ M ∨ e ∈ [c] ∨
      c ∈ (openings (news log (done ++ [c]))).drop n ∧ e = rejectionOf ids c)
    (hanswered : Answered ids n log cs log' c) :
    Stage ids model n log cs (done ++ [c]) log' where
  inv := hinv
  grown := hs.grown.trans hgrown
  opened := hopened
  closed := hclosed
  source e he := by
    rcases hsource e he with hM | hc | ⟨hdrop, heq⟩
    · exact (hs.source e hM).imp id (Or.imp (List.mem_append_left _) fun ⟨o, ho, heq⟩ =>
        ⟨o, ((openings_news_initial (List.prefix_append done [c])).drop n).subset ho, heq⟩)
    · exact .inr (.inl (List.mem_append_right _ hc))
    · exact .inr (.inr ⟨c, hdrop, heq⟩)
  answered c' hc' := by
    rcases List.mem_append.1 hc' with hc' | hc'
    · exact (hs.answered c' hc').grown hgrown
    · exact (List.mem_singleton.1 hc') ▸ hanswered

end

/-! ## The steps of a call -/

section
variable {trades : List Trade} {done M : List Event} {c : Event}

section
variable (hs : Stage ids model n log cs done M) (h : Call ids model n log trades cs)
  (hinit : done ++ [c] <+: cs)
include hs h hinit

/-- A closing: it is recorded where its trade is one that the call takes. -/
theorem Stage.step_closing (hfresh : Fresh log c) (hkind : c.kind = .positionClosed) :
    Stage ids model n log cs (done ++ [c]) (reconcile ids model M c) := by
  have hnone : openings [c] = [] := by simp [openings_singleton, hkind]
  have hone : closings [c] = [c] := by simp [closings_singleton, hkind]
  have hnews : news log (done ++ [c]) = news log done ++ [c] := news_snoc_of_fresh hfresh
  have hactive : c.paperTradeId ∈ (replay model M).activeTradeIds ↔ Taken n log cs c := by
    rw [hs.inv.dated.mem_activeTradeIds, mem_tradesOf_active, hs.opened_iff h hinit hkind]
    exact and_iff_left (hs.not_closed h hinit hfresh hkind)
  rw [reconcile_closing (hs.fresh h hinit hfresh) hkind]
  by_cases htaken : Taken n log cs c
  · have hkept : [c].filter (fun c => decide (Taken n log cs c)) = [c] :=
      List.filter_eq_self.2 (by simpa using htaken)
    rw [if_neg (not_not_intro (hactive.2 htaken))]
    refine hs.turn (hs.inv_closing h hinit hfresh hkind htaken) (List.prefix_append _ _) ?_ ?_
      (fun e he => (List.mem_append.1 he).imp id .inl) (.inl (by simp))
    · rw [openings_append, hnone, List.append_nil, hs.opened, hnews, openings_append, hnone,
        List.append_nil]
    · rw [closings_append, hone, hs.closed, hnews, closings_append, hone, List.filter_append, hkept,
        List.append_assoc]
  · have hkept : [c].filter (fun c => decide (Taken n log cs c)) = [] :=
      List.filter_eq_nil_iff.2 (by simpa using htaken)
    rw [if_pos (mt hactive.1 htaken)]
    refine hs.turn hs.inv List.prefix_rfl ?_ ?_ (fun e he => .inl he) (.inr (.inr ⟨hkind, htaken⟩))
    · rw [hs.opened, hnews, openings_append, hnone, List.append_nil]
    · rw [hs.closed, hnews, closings_append, hone, List.filter_append, hkept, List.append_nil]

variable (hdeposit : Micro model.depositUsdt) (hmicro : Micro model.positionMarginUsdt)
  (hmargin : 0 ≤ model.positionMarginUsdt)
include hdeposit hmicro hmargin

/-- An opening: the first `n` are granted, the others turned away. -/
theorem Stage.step_opening (hfresh : Fresh log c) (hkind : c.kind = .positionOpened) :
    Stage ids model n log cs (done ++ [c]) (reconcile ids model M c) := by
  have hone : openings [c] = [c] := by simp [openings_singleton, hkind]
  have hnone : closings [c] = [] := by simp [closings_singleton, hkind]
  have hnews : news log (done ++ [c]) = news log done ++ [c] := news_snoc_of_fresh hfresh
  have hdone : done <+: cs := (List.prefix_append _ _).trans hinit
  rw [reconcile_opening (hs.fresh h hinit hfresh) hkind]
  by_cases hn : (openings (news log done)).length < n
  · rw [if_neg (hs.grants h hdeposit hmicro hmargin hdone hn)]
    have htake : (openings (news log (done ++ [c]))).take n = openings (news log (done ++ [c])) :=
      List.take_of_length_le (by simpa [hnews, hone] using hn)
    refine hs.turn (hs.inv_opening h hinit hfresh hkind hn) (List.prefix_append _ _) ?_ ?_
      (fun e he => (List.mem_append.1 he).imp id .inl) (.inl (by simp))
    · rw [htake, openings_append, hone, hs.opened, List.take_of_length_le hn.le, hnews,
        openings_append, hone, List.append_assoc]
    · rw [closings_append, hnone, List.append_nil, hs.closed, hnews, closings_append, hnone,
        List.append_nil]
  · have hn : n ≤ (openings (news log done)).length := not_lt.1 hn
    have hmore : n < (openings (news log cs)).length := by
      have hle : (openings (news log (done ++ [c]))).length ≤ (openings (news log cs)).length :=
        (openings_news_initial hinit).length_le
      rw [hnews, openings_append, hone, List.length_append, List.length_singleton] at hle
      omega
    rw [if_pos (hs.refuses h hdeposit hmicro hmargin hdone hn hmore)]
    have hd := h.drafted c (hinit.subset (by simp))
    have hrejected : (rejectionOf ids c).kind = .allocationRejected := rfl
    have hmoves : openings (addEvent M (rejectionOf ids c)) = openings M ∧
        closings (addEvent M (rejectionOf ids c)) = closings M := by
      rw [addEvent]
      split_ifs
      · exact ⟨rfl, rfl⟩
      · simp [openings_singleton, closings_singleton, hrejected]
    refine hs.turn (hs.inv.addEvent rfl hd.margin hd.pnl rfl) (prefix_addEvent M _) ?_ ?_
      (fun e he => ?_) (.inr (.inl ⟨hkind, hmore, eventId_mem_addEvent M _⟩))
    · rw [hmoves.1, hs.opened, hnews, openings_append, List.take_append_of_le_length hn]
    · rw [hmoves.2, hs.closed, hnews, closings_append, hnone, List.append_nil]
    · rw [addEvent] at he
      split_ifs at he
      · exact .inl he
      · refine (List.mem_append.1 he).imp id fun he => .inr ⟨?_, List.mem_singleton.1 he⟩
        rw [hnews, openings_append, hone, List.drop_append_of_le_length hn]
        exact List.mem_append_right _ (by simp)

theorem Stage.step : Stage ids model n log cs (done ++ [c]) (reconcile ids model M c) := by
  have hd := h.drafted c (hinit.subset (by simp))
  by_cases hfresh : Fresh log c
  · by_cases hopened : c.kind = .positionOpened
    · exact hs.step_opening h hinit hdeposit hmicro hmargin hfresh hopened
    by_cases hclosed : c.kind = .positionClosed
    · exact hs.step_closing h hinit hfresh hclosed
    have hopenings : openings [c] = [] := by simp [openings_singleton, hopened]
    have hclosings : closings [c] = [] := by simp [closings_singleton, hclosed]
    have hnews : news log (done ++ [c]) = news log done ++ [c] := news_snoc_of_fresh hfresh
    rw [reconcile_other (hs.fresh h hinit hfresh) hopened hclosed]
    refine hs.turn
      (hs.inv.snoc hd.named hd.margin hd.pnl (absurd · hopened) (absurd · hclosed))
      (List.prefix_append _ _) ?_ ?_ (fun e he => (List.mem_append.1 he).imp id .inl)
      (.inl (by simp))
    · rw [openings_append, hopenings, List.append_nil, hs.opened, hnews, openings_append, hopenings,
        List.append_nil]
    · rw [closings_append, hclosings, List.append_nil, hs.closed, hnews, closings_append, hclosings,
        List.append_nil]
  · have hM : ¬Fresh M c := fun hM =>
      hfresh fun hmem => hM ((hs.grown.map Event.eventId).subset hmem)
    rw [reconcile_of_not_fresh hM]
    refine hs.turn hs.inv List.prefix_rfl ?_ ?_ (fun e he => .inl he) (.inl (not_not.1 hM))
    · rw [hs.opened, news_snoc_of_not_fresh hfresh]
    · rw [hs.closed, news_snoc_of_not_fresh hfresh]

end

section
variable (h : Call ids model n log trades cs) (hdeposit : Micro model.depositUsdt)
  (hmicro : Micro model.positionMarginUsdt) (hmargin : 0 ≤ model.positionMarginUsdt)
include h hdeposit hmicro hmargin

/-- Where the loop stands when it has met all candidates. -/
theorem Call.stage : Stage ids model n log cs cs (cs.foldl (reconcile ids model) log) := by
  have hloop : ∀ {done rest M}, done ++ rest = cs → Stage ids model n log cs done M →
      Stage ids model n log cs cs (rest.foldl (reconcile ids model) M) := by
    intro done rest M hcs hs
    induction rest generalizing done M with
    | nil => exact (List.append_nil done ▸ hcs) ▸ hs
    | cons c rest ih =>
      have hinit : done ++ [c] <+: cs := ⟨rest, by rw [← hcs]; simp⟩
      exact ih (by rw [← hcs]; simp) (hs.step h hinit hdeposit hmicro hmargin)
  refine hloop (List.nil_append cs) ⟨h.inv, List.prefix_rfl, ?_, ?_, fun e he => .inl he, ?_⟩
  · simp [news, openings]
  · simp [news, closings]
  · simp

/-- What a candidate came to it comes to again. -/
theorem Call.again (hc : c ∈ cs) :
    reconcile ids model (cs.foldl (reconcile ids model) log) c =
      cs.foldl (reconcile ids model) log := by
  have hs := h.stage hdeposit hmicro hmargin
  by_cases hfresh : Fresh (cs.foldl (reconcile ids model) log) c
  swap
  · exact reconcile_of_not_fresh hfresh
  rcases hs.answered c hc with hmem | ⟨hkind, hmore, hmem⟩ | ⟨hkind, htaken⟩
  · exact absurd hmem hfresh
  · have hfull := hs.refuses h hdeposit hmicro hmargin List.prefix_rfl hmore.le hmore
    rw [reconcile_opening hfresh hkind, if_pos hfull, addEvent, if_pos hmem]
  · have hinactive : c.paperTradeId ∉
        (replay model (cs.foldl (reconcile ids model) log)).activeTradeIds := by
      rw [hs.inv.dated.mem_activeTradeIds, mem_tradesOf_active, hs.opened]
      exact fun hactive => htaken hactive.1
    rw [reconcile_closing hfresh hkind, if_pos hinactive]

/-- The openings and closings of the log that a call leaves crowd no date. -/
theorem Call.roomy : Roomy model (cs.foldl (reconcile ids model) log) := by
  have hs := h.stage hdeposit hmicro hmargin
  have hopened : openings (cs.foldl (reconcile ids model) log) = openings (taken n log cs) := by
    rw [hs.opened, openings_taken, funded]
  have hclosed : closings (cs.foldl (reconcile ids model) log) = closings (taken n log cs) := by
    rw [hs.closed, closings_taken, settled]
  have hroomy := h.funds.roomy
  unfold Roomy overlapping at *
  rw [hopened, hclosed]
  exact hroomy

theorem Call.opened_by_owner :
    OpenedByOwner ids log trades (cs.foldl (reconcile ids model) log) := by
  intro e he hkind
  have hs := h.stage hdeposit hmicro hmargin
  rcases hs.of_mem List.prefix_rfl he (by simp [hkind]) with hlog | hcs
  · exact h.inv.opened_by_owner e hlog hkind
  · exact (h.drafted e hcs).owner hkind

end

/-! ## Runs -/

theorem Inv.call (h : Inv ids model log) (ho : (orderlyCalls ids model).enabled log trades) :
    ∃ n, Call ids model n log trades (candidates ids model log trades) := by
  obtain ⟨hunambiguous, n, hfunds⟩ := ho
  exact ⟨n, h, fun _ hc => drafted hc, sortOn_pairwise candidateKey _, hunambiguous, hfunds⟩

end
end

/-! ## An account with room for few positions -/

def EventKind.text : EventKind → String
  | .positionOpened => "opened"
  | .positionClosed => "closed"
  | .allocationRejected => "rejected"
  | .counterfactualExcluded => "excluded"

end ResearchLab.AccountLedger
