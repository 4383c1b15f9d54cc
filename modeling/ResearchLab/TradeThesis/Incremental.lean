import Mathlib
import ResearchLab.TradeThesis.Replay

/-!
# Incremental replays

What the theses of growing groups of observations store, against one replay of the last group.
-/
namespace ResearchLab.TradeThesis
open Foundation

variable {env : Env}

/-! ## Stored theses -/

section
variable {group group' rows : List Row} {thesis : Thesis} {leader : Row} {now : String}

theorem Identified.inOrder (h : Identified group) : Identified (ordered env group) where
  nodup := ((sortOn_perm (observationOrder env) group).map Row.signalId).nodup_iff.2 h.nodup
  ne_empty row hrow := h.ne_empty row (mem_sortOn.1 hrow)

variable (env) in
theorem mem_ordered {row : Row} : row ∈ ordered env group ↔ row ∈ group := mem_sortOn

theorem replay_none (h : Identified group) :
    replaySymbolFsm env group none = (ordered env group).foldl (Fsm.observe env) .start := by
  have hstart : ¬((restored none).primarySignalId ≠ "" ∧
      (restored none).primarySignalId ∉ group.map Row.signalId) := fun hended => hended.1 rfl
  rw [replaySymbolFsm, if_neg hstart]
  exact foldl_observe h.inOrder.nodup (by simp [restored, Fsm.start]) (by simp)

/-- The observations of a stored thesis are known, the later ones go through the machine. -/
structure Stored (env : Env) (thesis : Thesis) (group : List Row) : Prop where
  led : thesis.fsm.primarySignalId ≠ ""
  anchored : thesis.fsm.Anchored group
  known : thesis.fsm.transitions.map Transition.signalId = (ordered env group).map Row.signalId

theorem Stored.restored (h : Stored env thesis group) : restored (some thesis) = thesis.fsm := by
  have hopen : thesis.fsmState ≠ .closed := h.anchored.open_
  rw [TradeThesis.restored, if_neg hopen]
  rfl

theorem Stored.replay (h : Stored env thesis group) (hids : Identified group')
    (hrest : ordered env group' = ordered env group ++ rows) :
    replaySymbolFsm env group' (some thesis) = rows.foldl (Fsm.observe env) thesis.fsm := by
  have hordered : Identified (ordered env group') := hids.inOrder
  rw [hrest] at hordered
  obtain ⟨row, hrow, hid, -⟩ := h.anchored.row h.led
  have hmem : row ∈ group' := by
    rw [← mem_ordered env, hrest]
    exact List.mem_append_left _ ((mem_ordered env).2 hrow)
  have hactive : ¬((TradeThesis.restored (some thesis)).primarySignalId ≠ "" ∧
      (TradeThesis.restored (some thesis)).primarySignalId ∉ group'.map Row.signalId) := by
    rw [h.restored, ← hid]
    exact fun hended => hended.2 (List.mem_map_of_mem hmem)
  have hknown : ∀ id, id ∈ (thesis.fsm.transitions.map Transition.signalId).filter (· ≠ "") ↔
      id ∈ (ordered env group).map Row.signalId := by
    intro id
    rw [h.known, List.mem_filter]
    refine ⟨And.left, fun hmem => ⟨hmem, ?_⟩⟩
    obtain ⟨other, hother, rfl⟩ := List.mem_map.1 hmem
    simpa using hordered.ne_empty other (List.mem_append_left _ hother)
  have hskip : (ordered env group).foldl
      (observe env ((thesis.fsm.transitions.map Transition.signalId).filter (· ≠ "")))
      ⟨thesis.fsm, []⟩ = ⟨thesis.fsm, []⟩ :=
    foldl_observe_known fun other hother => (hknown _).2 (List.mem_map_of_mem hother)
  have hnodup := hordered.nodup
  rw [List.map_append, List.nodup_append] at hnodup
  rw [replaySymbolFsm, if_neg hactive, h.restored,
    show sortOn (observationOrder env) group' = ordered env group ++ rows from hrest,
    List.foldl_append, hskip]
  refine foldl_observe hnodup.2.1 (fun other hother hin => ?_) (by simp)
  exact hnodup.2.2 _ ((hknown _).1 hin) _ (List.mem_map_of_mem hother) rfl

variable (leader now) in
theorem thesis_of_led {previous : Option Thesis} (hids : Identified group)
    (hanchored : (replaySymbolFsm env group previous).Anchored group)
    (hled : (replaySymbolFsm env group previous).primarySignalId ≠ "") :
    (thesisFromLeader env now leader group previous).fsm = replaySymbolFsm env group previous := by
  obtain ⟨row, hrow, hid, hside, htimeframe⟩ := hanchored.row hled
  have hfind := (find?_key_eq_some hids.nodup).2 ⟨hrow, hid⟩
  simp only [thesisFromLeader, Thesis.fsm, hfind, Option.getD_some, if_pos hled, hside, htimeframe]

variable (leader now) in
theorem thesis_of_unled {previous : Option Thesis} (hids : Identified group)
    (hunled : (replaySymbolFsm env group previous).primarySignalId = "") :
    (thesisFromLeader env now leader group previous).fsm =
      (replaySymbolFsm env group previous).substitute leader := by
  have hfind : (group.find? fun row => row.signalId = "") = none := by
    rw [List.find?_eq_none]
    exact fun row hrow => by simpa using hids.ne_empty row hrow
  simp only [thesisFromLeader, Thesis.fsm, hfind, Option.getD_none, hunled, ne_eq,
    not_true_eq_false, if_false]
  rfl

variable (now) in
/-- A stored thesis is followed by that of any larger group. -/
theorem Stored.feedOne (h : Stored env thesis group) (hids : Identified group')
    (hrest : ordered env group' = ordered env group ++ rows) :
    ∃ next, feedOne env (some thesis) (now, group') = some next ∧ Stored env next group' ∧
      next.fsm = rows.foldl (Fsm.observe env) thesis.fsm := by
  have hsub : ∀ row ∈ group, row ∈ group' := by
    intro row hrow
    rw [← mem_ordered env, hrest]
    exact List.mem_append_left _ ((mem_ordered env).2 hrow)
  obtain ⟨row, hrow, hid, hside, htimeframe⟩ := h.anchored.row h.led
  have hleader : chooseLeader env group' (some thesis) = some row := by
    have hfind := (find?_key_eq_some hids.nodup).2 ⟨hsub row hrow, hid⟩
    rw [chooseLeader, Option.map_some, Option.getD_some]
    change (group'.find? fun row => row.signalId = thesis.fsm.primarySignalId).orElse _ = _
    rw [hfind, Option.orElse_some]
  have hreplay := h.replay hids hrest
  have hrows : ∀ row ∈ rows, row ∈ group' := by
    intro row hrow
    rw [← mem_ordered env, hrest]
    exact List.mem_append_right _ hrow
  have hrowIds : ∀ row ∈ rows, row.signalId ≠ "" := fun row hrow => hids.ne_empty row (hrows row hrow)
  have hanchored : thesis.fsm.Anchored group' :=
    ⟨fun _ => ⟨row, hsub row hrow, hid, hside, htimeframe⟩, h.anchored.none, h.anchored.open_⟩
  have hnext := hanchored.foldl env hrows hrowIds
  have hled := Fsm.led_foldl env h.led hrowIds
  have hfsm : (thesisFromLeader env now row group' (some thesis)).fsm =
      rows.foldl (Fsm.observe env) thesis.fsm := by
    rw [thesis_of_led row now hids, hreplay]
    · rw [hreplay]
      exact hnext
    · rw [hreplay]
      exact hled
  refine ⟨_, by rw [TradeThesis.feedOne, hleader, Option.map_some], ?_, hfsm⟩
  constructor
  · rw [hfsm]
    exact hled
  · rw [hfsm]
    exact hnext
  · rw [hfsm, Fsm.map_signalId_foldl, h.known, hrest, List.map_append]

variable (now) in
/-- The thesis of the first group. -/
theorem feedOne_none (hids : Identified group) (hne : group ≠ []) :
    ∃ leader ∈ group, chooseLeader env group none = some leader ∧
      ∃ thesis, feedOne env none (now, group) = some thesis ∧ Stored env thesis group ∧
        thesis.fsm =
          if (replaySymbolFsm env group none).primarySignalId = "" then
            (replaySymbolFsm env group none).substitute leader
          else replaySymbolFsm env group none := by
  obtain ⟨leader, hscore⟩ : ∃ leader, group.argmax (leaderScore env) = some leader := by
    rw [← Option.isSome_iff_exists, Option.isSome_iff_ne_none, Ne, List.argmax_eq_none]
    exact hne
  have hleader : leader ∈ group := List.argmax_mem hscore
  have hchoose : chooseLeader env group none = some leader := by
    have hfind : (group.find? fun row => row.signalId = "") = none := by
      rw [List.find?_eq_none]
      exact fun row hrow => by simpa using hids.ne_empty row hrow
    rw [chooseLeader, Option.map_none, Option.getD_none, hfind, Option.orElse_none, hscore]
  have hanchored : (replaySymbolFsm env group none).Anchored group := by
    rw [replay_none hids]
    exact Fsm.anchored_start.foldl env (fun row => (mem_ordered env).1) fun row hrow =>
      hids.ne_empty row ((mem_ordered env).1 hrow)
  have hknown : (replaySymbolFsm env group none).transitions.map Transition.signalId =
      (ordered env group).map Row.signalId := by
    rw [replay_none hids, Fsm.map_signalId_foldl]
    rfl
  refine ⟨leader, hleader, hchoose, _, by rw [feedOne, hchoose, Option.map_some], ?_⟩
  by_cases hled : (replaySymbolFsm env group none).primarySignalId = ""
  · rw [if_pos hled]
    have hfsm := thesis_of_unled leader now hids hled
    refine ⟨⟨?_, ?_, ?_⟩, hfsm⟩
    · rw [hfsm]
      exact hids.ne_empty leader hleader
    · rw [hfsm]
      exact ⟨fun _ => ⟨leader, hleader, rfl, rfl, rfl⟩,
        fun heq => absurd heq (hids.ne_empty leader hleader), hanchored.open_⟩
    · rw [hfsm]
      exact hknown
  · rw [if_neg hled]
    have hfsm := thesis_of_led leader now hids hanchored hled
    exact ⟨⟨by rw [hfsm]; exact hled, by rw [hfsm]; exact hanchored, by rw [hfsm]; exact hknown⟩, hfsm⟩


/-- Feeding growing groups takes the observations behind the first group through the machine that the
first thesis stores. -/
theorem feed_growing {later : List (String × List Row)} (h : Stored env thesis group)
    (hgrow : Growing env ((now, group) :: later))
    (hids : ∀ call ∈ later, Identified call.2) :
    ∃ next rows, later.foldl (TradeThesis.feedOne env) (some thesis) = some next ∧
      Stored env next ((later.getLast?.map Prod.snd).getD group) ∧
      ordered env ((later.getLast?.map Prod.snd).getD group) = ordered env group ++ rows ∧
      next.fsm = rows.foldl (Fsm.observe env) thesis.fsm := by
  induction later generalizing thesis group now with
  | nil => exact ⟨thesis, [], rfl, h, (List.append_nil _).symm, rfl⟩
  | cons call later ih =>
    obtain ⟨hfirst, hlater⟩ := List.isChain_cons_cons.1 hgrow
    obtain ⟨rows, hrows⟩ := hfirst
    obtain ⟨next, hnext, hstored, hfsm⟩ := h.feedOne call.1 (hids call List.mem_cons_self) hrows.symm
    obtain ⟨last, rest, hlast, hlastStored, hrest, hlastFsm⟩ :=
      ih hstored hlater fun other hother => hids other (List.mem_cons_of_mem _ hother)
    have hgroup : ((call :: later).getLast?.map Prod.snd).getD group =
        (later.getLast?.map Prod.snd).getD call.2 := by
      cases later with
      | nil => rfl
      | cons other later => simp [List.getLast?_cons]
    refine ⟨last, rows ++ rest, ?_, ?_, ?_, ?_⟩
    · rw [List.foldl_cons, hnext, hlast]
    · rw [hgroup]
      exact hlastStored
    · rw [hgroup, hrest, ← hrows, List.append_assoc]
    · rw [hlastFsm, hfsm, List.foldl_append]

end

/-! ## Incremental replays -/

/-- The watermark behind a list of observations in order. -/
def lastCreated (env : Env) (rows : List Row) : String :=
  ((rows.map (createdSortKey env)).getLast?).getD ""

theorem empty_le (s : String) : "" ≤ s := by
  rw [← not_lt, String.lt_iff_toList_lt]
  exact List.not_lt_nil _

namespace Fsm

theorem watermark_foldl {rows : List Row} {fsm : Fsm}
    (hsorted : rows.Pairwise fun a b => createdSortKey env a ≤ createdSortKey env b)
    (hle : ∀ row ∈ rows, fsm.watermark ≤ createdSortKey env row) :
    (rows.foldl (Fsm.observe env) fsm).watermark =
      ((rows.map (createdSortKey env)).getLast?).getD fsm.watermark := by
  induction rows generalizing fsm with
  | nil => rfl
  | cons row rows ih =>
    obtain ⟨hrow, hrows⟩ := List.pairwise_cons.1 hsorted
    have hmark : (fsm.observe env row).watermark = createdSortKey env row := by
      rw [Fsm.observe]
      split_ifs with hstale
      · exact le_antisymm (hle row List.mem_cons_self) hstale.2
      · rfl
    rw [List.foldl_cons, ih hrows (fun other hother => hmark ▸ hrow other hother), hmark,
      List.map_cons, List.getLast?_cons]
    rfl

end Fsm

/-- The observation that the machine follows first is in the first group, or the substituted leader
makes no difference until then. -/
def Followed (env : Env) (first group : List Row) : Prop :=
  (∃ row ∈ (ordered env first).head?, isDegraded row = false) ∨
    (∃ row ∈ decisive env "" (ordered env first), followable row) ∨
    ∃ leader, chooseLeader env first none = some leader ∧
      DecidedAlike leader (decisive env (lastCreated env (ordered env first))
        ((ordered env group).drop first.length))

/-- The thesis that the calls store shows what one replay of the last group shows, and a call for the
unchanged group leaves it as it is. -/
def IncrementalAgrees (env : Env) (calls : List (String × List Row)) (group : List Row) : Prop :=
  ∃ thesis, feed env calls = some thesis ∧
    thesis.fsm.shown = (replaySymbolFsm env group none).shown ∧
    ∀ now, ∃ again, feedOne env (some thesis) (now, group) = some again ∧
      again.fsm.shown = thesis.fsm.shown

theorem pairwise_created (group : List Row) :
    (ordered env group).Pairwise fun a b => createdSortKey env a ≤ createdSortKey env b := by
  refine (sortOn_pairwise (observationOrder env) group).imp fun {a b} hle => ?_
  rcases (Prod.Lex.toLex_le_toLex.1 hle : _) with hlt | heq
  · exact hlt.le
  · exact heq.1.le

theorem Identified.of_part {group group' : List Row} (h : Identified group')
    (hbegins : ordered env group <+: ordered env group') : Identified group := by
  have hsub : (ordered env group).Sublist (ordered env group') := hbegins.sublist
  have hordered : Identified (ordered env group') := h.inOrder
  constructor
  · rw [← ((sortOn_perm (observationOrder env) group).map Row.signalId).nodup_iff]
    exact hordered.nodup.sublist (hsub.map _)
  · intro row hrow
    exact hordered.ne_empty row (hsub.subset ((mem_ordered env).2 hrow))

/-- With the last group all groups have distinct signals. -/
theorem Growing.identified {calls : List (String × List Row)} (hgrow : Growing env calls)
    {group : List Row} (hlast : calls.getLast?.map Prod.snd = some group) (hids : Identified group) :
    ∀ call ∈ calls, Identified call.2 := by
  induction calls with
  | nil => simp
  | cons call calls ih =>
    cases calls with
    | nil =>
      intro other hother
      obtain rfl := List.mem_singleton.1 hother
      cases hlast
      exact hids
    | cons next calls =>
      obtain ⟨hbegins, hchain⟩ := List.isChain_cons_cons.1 hgrow
      have hrest := ih hchain (by simpa [List.getLast?_cons] using hlast)
      intro other hother
      rcases List.mem_cons.1 hother with rfl | hother
      · exact (hrest next List.mem_cons_self).of_part hbegins
      · exact hrest other hother

section
variable {first : List Row}

variable (env) in
/-- The machine behind the first group follows a signal, or it has left its start without one. -/
theorem first_replay (hids : Identified first) (hne : first ≠ []) :
    ((replaySymbolFsm env first none).primarySignalId ≠ "" ↔
      (∃ row ∈ (ordered env first).head?, isDegraded row = false) ∨
        ∃ row ∈ decisive env "" (ordered env first), followable row) ∧
    ((replaySymbolFsm env first none).primarySignalId = "" →
      (replaySymbolFsm env first none).Unled) := by
  rw [replay_none hids]
  have hordered : Identified (ordered env first) := hids.inOrder
  cases hrows : ordered env first with
  | nil =>
    have hperm : (ordered env first).Perm first := sortOn_perm (observationOrder env) first
    rw [hrows] at hperm
    exact absurd hperm.symm.eq_nil hne
  | cons row rows =>
    rw [hrows] at hordered
    have hid := fun other hother => hordered.ne_empty other (List.mem_cons_of_mem row hother)
    have hstale : ¬Fsm.start.isStale (createdSortKey env row) := fun hstale => hstale.1 rfl
    rw [List.foldl_cons, Fsm.observe, if_neg hstale]
    cases hrow : isDegraded row with
    | false =>
      have hd : Fsm.start.decision row = (Fsm.start.follow .active row, .activated, .startWatch) := by
        rw [Fsm.decision, hrow, if_neg Bool.false_ne_true,
          if_pos (show Fsm.start.state = .idle from rfl)]
      have hled : (Fsm.start.accept env row).primarySignalId ≠ "" := by
        rw [Fsm.accept, hd]
        exact hordered.ne_empty row List.mem_cons_self
      have hafter := Fsm.led_foldl env hled hid
      exact ⟨iff_of_true hafter (Or.inl ⟨row, rfl, hrow⟩), fun heq => absurd heq hafter⟩
    | true =>
      have hd : Fsm.start.decision row =
          ({ Fsm.start with state := .dataDegraded }, .dataDegraded, .suspendDecision) := by
        rw [Fsm.decision, if_pos hrow]
      have hunled : (Fsm.start.accept env row).Unled := by
        rw [Fsm.accept, hd]
        exact ⟨by simp, rfl, rfl, rfl⟩
      have hrest := hunled.foldl env hid
      have hdecisive : decisive env "" (row :: rows) = decisive env (createdSortKey env row) rows :=
        Fsm.decisive_of_degraded hstale hrow
      refine ⟨hrest.1.trans ?_, hrest.2⟩
      rw [hdecisive]
      refine (or_iff_right ?_).symm
      rintro ⟨other, hother, hhealthy⟩
      cases hother
      rw [hrow] at hhealthy
      cases hhealthy

end

/-- Replaying a symbol's observations in growing groups agrees with one replay exactly if the signal
that the machine follows first is observed in the first group, or the leader that stands for it decides
everything as no signal does. -/
theorem incremental_replay_iff {calls : List (String × List Row)} {now : String} {first group : List Row}
    (hfirst : first ≠ []) (hgrow : Growing env ((now, first) :: calls))
    (hlast : ((now, first) :: calls).getLast?.map Prod.snd = some group)
    (hids : Identified group) :
    IncrementalAgrees env ((now, first) :: calls) group ↔ Followed env first group := by
  have hall := hgrow.identified hlast hids
  have hfirstIds : Identified first := hall _ List.mem_cons_self
  obtain ⟨leader, hleader, hchoose, thesis, hthesis, hstored, hfsm⟩ := feedOne_none now hfirstIds hfirst
  obtain ⟨next, rows, hnext, hnextStored, hrows, hnextFsm⟩ :=
    feed_growing hstored hgrow fun call hcall => hall call (List.mem_cons_of_mem _ hcall)
  have hgroup : (calls.getLast?.map Prod.snd).getD first = group := by
    cases calls with
    | nil => simpa using hlast
    | cons call calls =>
      rw [List.getLast?_cons_cons] at hlast
      rw [hlast, Option.getD_some]
  rw [hgroup] at hnextStored hrows
  have hfeed : feed env ((now, first) :: calls) = some next := by
    rw [feed, List.foldl_cons, hthesis, hnext]
  have honce : replaySymbolFsm env group none =
      rows.foldl (Fsm.observe env) (replaySymbolFsm env first none) := by
    rw [replay_none hids, hrows, List.foldl_append, ← replay_none hfirstIds]
  -- the unchanged group changes nothing, whatever the first leader was
  have hagain : ∀ now, ∃ again, feedOne env (some next) (now, group) = some again ∧
      again.fsm.shown = next.fsm.shown := by
    intro now
    obtain ⟨again, hagain, -, hsame⟩ := hnextStored.feedOne now hids (List.append_nil _).symm
    exact ⟨again, hagain, congrArg Fsm.shown hsame⟩
  have hagrees : IncrementalAgrees env ((now, first) :: calls) group ↔
      (rows.foldl (Fsm.observe env) thesis.fsm).shown =
        (rows.foldl (Fsm.observe env) (replaySymbolFsm env first none)).shown := by
    rw [IncrementalAgrees, ← honce, ← hnextFsm]
    constructor
    · rintro ⟨other, hother, hshown, -⟩
      rw [hfeed] at hother
      cases hother
      exact hshown
    · exact fun hshown => ⟨next, hfeed, hshown, hagain⟩
  obtain ⟨hled, hunled⟩ := first_replay env hfirstIds hfirst
  rw [hagrees, Followed, hfsm]
  by_cases hprimary : (replaySymbolFsm env first none).primarySignalId = ""
  · have hrowIds : ∀ row ∈ rows, row.signalId ≠ "" := by
      intro row hrow
      refine hids.ne_empty row ((mem_ordered env).1 ?_)
      rw [hrows]
      exact List.mem_append_right _ hrow
    have hmark : (replaySymbolFsm env first none).watermark = lastCreated env (ordered env first) := by
      rw [replay_none hfirstIds]
      exact Fsm.watermark_foldl (pairwise_created first) fun row _ => empty_le _
    have hdrop : (ordered env group).drop first.length = rows := by
      have hlength : first.length = (ordered env first).length :=
        (sortOn_perm (observationOrder env) first).length_eq.symm
      rw [hrows, hlength, List.drop_left]
    rw [if_pos hprimary, (hunled hprimary).substitute_iff (hfirstIds.ne_empty leader hleader) hrowIds,
      ← or_assoc, ← hled, hmark, hdrop]
    simp only [hprimary, ne_eq, not_true_eq_false, false_or, hchoose, Option.some.injEq,
      exists_eq_left']
  · rw [if_neg hprimary, ← or_assoc, ← hled]
    exact iff_of_true rfl (Or.inl hprimary)

/-! ## A degraded first observation -/

/-- Digests that keep the texts they are made of. -/
def plainEnv : Env where
  isoformat seconds := toString seconds
  thesisDigest symbol startedAt := symbol ++ startedAt
  stateDigest symbol primary signals := symbol ++ primary ++
    String.join (signals.map fun signal => signal.id ++ signal.side ++ signal.timeframe ++ signal.status)
  eventDigest
    | .opened thesisId => "opened" ++ thesisId
    | .updated thesisId stateHash => "updated" ++ thesisId ++ stateHash
    | .closed thesisId result => "closed" ++ thesisId ++ result
    | .signal thesisId signalId eventType action => thesisId ++ signalId ++ eventType ++ action

def kaitoRow (signalId timeframe created quality : String) : Row where
  sourceSignalId := signalId
  paperProductTradeId := "ppt_" ++ signalId
  okxInstId := "KAITO-USDT-SWAP"
  symbol := ""
  side := "long"
  timeframe := timeframe
  status := "armed"
  source := "farm"
  setupFamily := "reversal_fade"
  sourceCreatedAt := none
  createdAt := some (.text created)
  dataQuality := quality
  dataQualityFlags := []
  liveReady := false
  readyStrategyId := ""
  entry := none
  stop := none
  takeProfitPlan := []
  result := ""
  netPct := none

def earlyRow (quality : String) : Row := kaitoRow "sig_a" "15m" "2026-07-08T12:00:00+00:00" quality

def laterRow : Row := kaitoRow "sig_b" "1h" "2026-07-08T13:00:00+00:00" ""

/-- The two observations, the first one alone before. -/
def twoCalls (quality : String) : List (String × List Row) :=
  [("2026-07-08T12:30:00+00:00", [earlyRow quality]),
    ("2026-07-08T13:30:00+00:00", [earlyRow quality, laterRow])]

/-- The leader of a degraded observation takes the place of the primary signal, and the next one
confirms it where the whole replay reverses to it. -/
theorem degraded_start_diverges :
    ¬IncrementalAgrees plainEnv (twoCalls "degraded") [earlyRow "degraded", laterRow] := by
  have hne : (feed plainEnv (twoCalls "degraded")).map (fun thesis => thesis.fsm.shown) ≠
      some (replaySymbolFsm plainEnv [earlyRow "degraded", laterRow] none).shown := by
    decide +kernel
  rintro ⟨thesis, hfeed, hshown, -⟩
  rw [hfeed, Option.map_some, hshown] at hne
  exact hne rfl

theorem incremental_replay_iff_twoCalls :
    IncrementalAgrees plainEnv (twoCalls "") [earlyRow "", laterRow] ↔
      Followed plainEnv [earlyRow ""] [earlyRow "", laterRow] :=
  incremental_replay_iff (by decide)
    (List.isChain_cons_cons.2 ⟨by decide +kernel, List.isChain_singleton _⟩) rfl
    ⟨by decide +kernel, by decide +kernel⟩

end ResearchLab.TradeThesis
