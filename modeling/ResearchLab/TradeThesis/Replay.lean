import Mathlib
import ResearchLab.TradeThesis.Fsm

/-!
# Replays in parts

The observations of a symbol fed in growing prefixes, each with the thesis stored before, against
one replay of all of them.
-/
namespace ResearchLab.TradeThesis
open Foundation

variable {env : Env}

/-! ## Feeding -/

/-- One call of the supervisor for the group of a symbol, at a time. -/
def feedOne (env : Env) (previous : Option Thesis) (call : String × List Row) : Option Thesis :=
  (chooseLeader env call.2 previous).map fun leader =>
    thesisFromLeader env call.1 leader call.2 previous

def feed (env : Env) (calls : List (String × List Row)) : Option Thesis :=
  calls.foldl (feedOne env) none

/-- The observations of a group in the order of the replay. -/
def ordered (env : Env) (group : List Row) : List Row := sortOn (observationOrder env) group

/-- Every group begins with the observations of the one before. -/
def Growing (env : Env) (calls : List (String × List Row)) : Prop :=
  calls.IsChain fun call next => ordered env call.2 <+: ordered env next.2

/-- Distinct signals with ids. -/
structure Identified (group : List Row) : Prop where
  nodup : (group.map Row.signalId).Nodup
  ne_empty : ∀ row ∈ group, row.signalId ≠ ""

/-! ## The machine without the bookkeeping of ids -/

namespace Fsm

def observe (env : Env) (fsm : Fsm) (row : Row) : Fsm :=
  if fsm.isStale (createdSortKey env row) then fsm.ignore env row .staleIgnored
  else fsm.accept env row

end Fsm

theorem foldl_observe {rows : List Row} {known : List String} {loop : Loop}
    (hnodup : (rows.map Row.signalId).Nodup) (hknown : ∀ row ∈ rows, row.signalId ∉ known)
    (hseen : ∀ row ∈ rows, row.signalId ∉ loop.seen) :
    (rows.foldl (observe env known) loop).fsm = rows.foldl (Fsm.observe env) loop.fsm := by
  induction rows generalizing loop with
  | nil => rfl
  | cons row rows ih =>
    obtain ⟨hrow, hrows⟩ := List.nodup_cons.1 hnodup
    have hother : ∀ other ∈ rows, other.signalId ≠ row.signalId := by
      intro other hmem heq
      exact hrow (heq ▸ List.mem_map_of_mem hmem)
    rw [List.foldl_cons, List.foldl_cons, observe, if_neg (hknown row List.mem_cons_self),
      if_neg (hseen row List.mem_cons_self), Fsm.observe]
    have hrest := fun other hmem => hknown other (List.mem_cons_of_mem row hmem)
    split
    · exact ih hrows hrest fun other hmem => hseen other (List.mem_cons_of_mem _ hmem)
    · refine ih hrows hrest fun other hmem => ?_
      rw [List.mem_cons, not_or]
      exact ⟨hother other hmem, hseen other (List.mem_cons_of_mem _ hmem)⟩

theorem foldl_observe_known {rows : List Row} {known : List String} {loop : Loop}
    (h : ∀ row ∈ rows, row.signalId ∈ known) : rows.foldl (observe env known) loop = loop := by
  induction rows with
  | nil => rfl
  | cons row rows ih =>
    rw [List.foldl_cons, observe, if_pos (h row List.mem_cons_self)]
    exact ih fun other hmem => h other (List.mem_cons_of_mem _ hmem)

namespace Fsm
variable {fsm : Fsm} {row : Row} {rows : List Row}

theorem accept_transitions : (fsm.accept env row).transitions = fsm.transitions ++
    [⟨row.signalId, createdSortKey env row, fsm.state, (fsm.decision row).1.state,
      (fsm.decision row).2.1, (fsm.decision row).2.2⟩] := rfl

variable (env fsm row) in
/-- An observation adds one transition under its id. -/
theorem observe_transitions : ∃ t : Transition, t.signalId = row.signalId ∧
    (fsm.observe env row).transitions = fsm.transitions ++ [t] := by
  rw [observe]
  split
  · exact ⟨_, rfl, rfl⟩
  · exact ⟨_, rfl, accept_transitions⟩

theorem map_signalId_foldl : (rows.foldl (Fsm.observe env) fsm).transitions.map Transition.signalId =
    fsm.transitions.map Transition.signalId ++ rows.map Row.signalId := by
  induction rows generalizing fsm with
  | nil => simp
  | cons row rows ih =>
    obtain ⟨t, hid, ht⟩ := observe_transitions env fsm row
    rw [List.foldl_cons, ih, ht, List.map_append, List.map_singleton, hid, List.map_cons,
      List.append_assoc, List.singleton_append]

variable (env fsm rows) in
/-- Transitions are only added. -/
theorem transitions_prefix_foldl :
    fsm.transitions <+: (rows.foldl (Fsm.observe env) fsm).transitions := by
  induction rows generalizing fsm with
  | nil => exact List.prefix_rfl
  | cons row rows ih =>
    obtain ⟨t, -, ht⟩ := observe_transitions env fsm row
    rw [List.foldl_cons]
    exact (ht ▸ List.prefix_append _ _).trans (ih _)

variable (fsm row) in
theorem decision_cases : (fsm.decision row).1 = { fsm with state := .dataDegraded } ∨
    (fsm.decision row).1 = { fsm with state := .active } ∨
    (fsm.decision row).1 = { fsm with state := .contradicted } ∨
    (fsm.decision row).1 = fsm.follow .active row ∨
    (fsm.decision row).1 = fsm.follow .reversed row := by
  rw [decision]
  split_ifs <;> simp

/-- The primary signal of the machine is one of the observations, with its side and timeframe. -/
structure Anchored (fsm : Fsm) (group : List Row) : Prop where
  row : fsm.primarySignalId ≠ "" → ∃ row ∈ group, row.signalId = fsm.primarySignalId ∧
    row.side = fsm.primarySide ∧ row.timeframe = fsm.primaryTimeframe
  none : fsm.primarySignalId = "" → fsm.primarySide = "" ∧ fsm.primaryTimeframe = ""
  open_ : fsm.state ≠ .closed

theorem anchored_start {group : List Row} : Fsm.start.Anchored group :=
  ⟨fun h => absurd rfl h, fun _ => ⟨rfl, rfl⟩, by decide⟩

variable (env) in
theorem Anchored.observe {group : List Row} (h : fsm.Anchored group) (hrow : row ∈ group)
    (hid : row.signalId ≠ "") : (fsm.observe env row).Anchored group := by
  rw [Fsm.observe]
  split
  · exact ⟨h.row, h.none, h.open_⟩
  · rcases decision_cases fsm row with hd | hd | hd | hd | hd
    all_goals
      constructor
      all_goals simp only [accept, hd, follow]
    all_goals first
      | exact h.row
      | exact h.none
      | exact fun _ => ⟨row, hrow, rfl, rfl, rfl⟩
      | exact fun heq => absurd heq hid
      | decide

variable (env) in
theorem Anchored.foldl {group : List Row} (h : fsm.Anchored group) (hrows : ∀ row ∈ rows, row ∈ group)
    (hid : ∀ row ∈ rows, row.signalId ≠ "") : (rows.foldl (Fsm.observe env) fsm).Anchored group := by
  induction rows generalizing fsm with
  | nil => exact h
  | cons row rows ih =>
    have hrow := h.observe env (hrows row List.mem_cons_self) (hid row List.mem_cons_self)
    exact ih hrow (fun other hmem => hrows other (List.mem_cons_of_mem _ hmem))
      fun other hmem => hid other (List.mem_cons_of_mem _ hmem)

variable (env) in
/-- A machine that follows a signal goes on to follow one. -/
theorem led_foldl (h : fsm.primarySignalId ≠ "") (hid : ∀ row ∈ rows, row.signalId ≠ "") :
    (rows.foldl (Fsm.observe env) fsm).primarySignalId ≠ "" := by
  induction rows generalizing fsm with
  | nil => exact h
  | cons row rows ih =>
    refine ih ?_ fun other hmem => hid other (List.mem_cons_of_mem _ hmem)
    rw [Fsm.observe]
    split
    · exact h
    · rcases decision_cases fsm row with hd | hd | hd | hd | hd
      all_goals simp only [accept, hd, follow]
      all_goals first
        | exact h
        | exact hid row List.mem_cons_self

end Fsm
/-! ## What no primary signal decides -/

/-- The observations that decide something, behind a watermark. -/
def decisive (env : Env) : String → List Row → List Row
  | _, [] => []
  | watermark, row :: rows =>
      if watermark ≠ "" ∧ createdSortKey env row ≤ watermark then decisive env watermark rows
      else if isDegraded row then decisive env (createdSortKey env row) rows
      else row :: decisive env (createdSortKey env row) rows

/-- A row that the machine follows when it follows none. -/
def followable (row : Row) : Prop := row.side ≠ "" ∧ 0 < tfRank row.timeframe

instance instDecidableFollowable (row : Row) : Decidable (followable row) :=
  inferInstanceAs (Decidable (_ ∧ _))

/-- Against the leader the rows decide as against no primary signal, up to one that is followed. -/
def DecidedAlike (leader : Row) : List Row → Prop
  | [] => False
  | row :: rows =>
      if followable row then row.side ≠ leader.side ∧ tfRank leader.timeframe < tfRank row.timeframe
      else (row.side = leader.side ↔ row.side = "") ∧ DecidedAlike leader rows

namespace Fsm
variable {fsm : Fsm} {row : Row} {rows : List Row}

/-- The machine has left its start and follows no signal. -/
structure Unled (fsm : Fsm) : Prop where
  started : fsm.state ≠ .idle
  id : fsm.primarySignalId = ""
  side : fsm.primarySide = ""
  timeframe : fsm.primaryTimeframe = ""

theorem Unled.ignore (h : fsm.Unled) (event : FsmEvent) : (fsm.ignore env row event).Unled :=
  ⟨h.started, h.id, h.side, h.timeframe⟩

theorem tfRank_empty : tfRank "" = 0 := by decide

theorem decisive_of_stale (h : fsm.isStale (createdSortKey env row)) :
    decisive env fsm.watermark (row :: rows) = decisive env fsm.watermark rows := if_pos h

theorem decisive_of_degraded (h : ¬fsm.isStale (createdSortKey env row)) (hrow : isDegraded row = true) :
    decisive env fsm.watermark (row :: rows) = decisive env (createdSortKey env row) rows :=
  (if_neg h).trans (if_pos hrow)

theorem decisive_of_healthy (h : ¬fsm.isStale (createdSortKey env row)) (hrow : isDegraded row = false) :
    decisive env fsm.watermark (row :: rows) = row :: decisive env (createdSortKey env row) rows :=
  (if_neg h).trans (if_neg (by simp [hrow]))

/-- What a machine that follows no signal makes of a decisive row. -/
theorem Unled.decision (h : fsm.Unled) (hrow : isDegraded row = false) :
    fsm.decision row =
      if followable row then (fsm.follow .reversed row, .reversal, .flipWatch)
      else if row.side = "" then ({ fsm with state := .active }, .confirmation, .updateWatch)
      else ({ fsm with state := .contradicted }, .contradiction, .tightenWatch) := by
  rw [Fsm.decision, hrow, if_neg Bool.false_ne_true, if_neg h.started, h.side, h.timeframe,
    tfRank_empty]
  by_cases hside : row.side = ""
  · rw [if_pos hside, if_neg (fun hfollow => hfollow.1 hside), if_pos hside]
  · rw [if_neg hside]
    by_cases hrank : 0 < tfRank row.timeframe
    · rw [if_pos hrank, if_pos ⟨hside, hrank⟩]
    · rw [if_neg hrank, if_neg (fun hfollow => hrank hfollow.2), if_neg hside]

theorem Unled.degraded (h : fsm.Unled) (hrow : isDegraded row = true) :
    (fsm.accept env row).Unled := by
  have hd : fsm.decision row = ({ fsm with state := .dataDegraded }, .dataDegraded, .suspendDecision) := by
    rw [Fsm.decision, if_pos hrow]
  rw [accept, hd]
  exact ⟨by simp, h.id, h.side, h.timeframe⟩

variable (env) in
theorem Unled.accept (h : fsm.Unled) (hrow : isDegraded row = false) (hnot : ¬followable row) :
    (fsm.accept env row).Unled := by
  rw [Fsm.accept, h.decision hrow, if_neg hnot]
  split_ifs
  · exact ⟨by simp, h.id, h.side, h.timeframe⟩
  · exact ⟨by simp, h.id, h.side, h.timeframe⟩

variable (env) in
/-- The machine comes to follow a signal at the first decisive row that it can follow. -/
theorem Unled.foldl (h : fsm.Unled) (hid : ∀ row ∈ rows, row.signalId ≠ "") :
    ((rows.foldl (Fsm.observe env) fsm).primarySignalId ≠ "" ↔
      ∃ row ∈ decisive env fsm.watermark rows, followable row) ∧
    ((rows.foldl (Fsm.observe env) fsm).primarySignalId = "" →
      (rows.foldl (Fsm.observe env) fsm).Unled) := by
  induction rows generalizing fsm with
  | nil => exact ⟨by simp [decisive, h.id], fun _ => h⟩
  | cons row rows ih =>
    have hrest : ∀ other ∈ rows, other.signalId ≠ "" := fun other hmem =>
      hid other (List.mem_cons_of_mem _ hmem)
    rw [List.foldl_cons, Fsm.observe]
    by_cases hstale : fsm.isStale (createdSortKey env row)
    · rw [if_pos hstale, decisive_of_stale hstale]
      exact ih (h.ignore _) hrest
    rw [if_neg hstale]
    cases hrow : isDegraded row with
    | true =>
      rw [decisive_of_degraded hstale hrow]
      exact ih (h.degraded hrow) hrest
    | false =>
      rw [decisive_of_healthy hstale hrow]
      by_cases hfollow : followable row
      · have hled : (fsm.accept env row).primarySignalId ≠ "" := by
          rw [Fsm.accept, h.decision hrow, if_pos hfollow]
          exact hid row List.mem_cons_self
        have hafter := led_foldl env hled hrest
        refine ⟨iff_of_true hafter ⟨row, List.mem_cons_self, hfollow⟩, fun heq => absurd heq hafter⟩
      · have hih := ih (h.accept env hrow hfollow) hrest
        refine ⟨hih.1.trans ?_, hih.2⟩
        simp only [List.exists_mem_cons_iff, hfollow, false_or]
        rfl

/-- The fields that a thesis shows of the machine. -/
def shown (fsm : Fsm) : FsmState × String × String × String × List Transition :=
  (fsm.state, fsm.primarySignalId, fsm.primarySide, fsm.watermark, fsm.transitions)

/-- The leader in the place of the primary signal. -/
def substitute (fsm : Fsm) (leader : Row) : Fsm :=
  { fsm with
    primarySide := leader.side
    primaryTimeframe := leader.timeframe
    primarySignalId := leader.signalId }

/-- Machines that have recorded different transitions are never the same again. -/
theorem shown_ne_of_decision {other : Fsm} (h : fsm.transitions = other.transitions)
    (hne : (fsm.decision row).2.1 ≠ (other.decision row).2.1) :
    (rows.foldl (Fsm.observe env) (fsm.accept env row)).shown ≠
      (rows.foldl (Fsm.observe env) (other.accept env row)).shown := by
  intro heq
  have htransitions : (rows.foldl (Fsm.observe env) (fsm.accept env row)).transitions =
      (rows.foldl (Fsm.observe env) (other.accept env row)).transitions :=
    congrArg (fun s => s.2.2.2.2) heq
  have hbegins := transitions_prefix_foldl env (fsm.accept env row) rows
  have hbegins' := transitions_prefix_foldl env (other.accept env row) rows
  rw [accept_transitions, htransitions] at hbegins
  rw [accept_transitions, ← h] at hbegins'
  have hle := List.prefix_of_prefix_length_le hbegins hbegins' (by simp)
  have hsame := List.append_cancel_left (hle.eq_of_length (by simp))
  exact hne (congrArg Transition.eventType (List.cons.inj hsame).1)

/-- With the leader in the place of the missing primary signal the machine ends as without it exactly
if the rows decide alike until one is followed. -/
theorem Unled.substitute_iff (h : fsm.Unled) {leader : Row} (hleader : leader.signalId ≠ "")
    (hid : ∀ row ∈ rows, row.signalId ≠ "") :
    (rows.foldl (Fsm.observe env) (fsm.substitute leader)).shown =
        (rows.foldl (Fsm.observe env) fsm).shown ↔
      DecidedAlike leader (decisive env fsm.watermark rows) := by
  induction rows generalizing fsm with
  | nil =>
    refine iff_of_false (fun heq => ?_) (by simp [decisive, DecidedAlike])
    have hids : leader.signalId = fsm.primarySignalId := congrArg (fun s => s.2.1) heq
    exact hleader (hids.trans h.id)
  | cons row rows ih =>
    have hrest : ∀ other ∈ rows, other.signalId ≠ "" := fun other hmem =>
      hid other (List.mem_cons_of_mem _ hmem)
    have hstaleLed : (fsm.substitute leader).isStale (createdSortKey env row) ↔
        fsm.isStale (createdSortKey env row) := Iff.rfl
    rw [List.foldl_cons, List.foldl_cons, Fsm.observe, Fsm.observe]
    by_cases hstale : fsm.isStale (createdSortKey env row)
    · rw [if_pos hstale, if_pos (hstaleLed.2 hstale), decisive_of_stale hstale]
      exact ih (h.ignore _) hrest
    rw [if_neg hstale, if_neg fun hled => hstale (hstaleLed.1 hled)]
    cases hrow : isDegraded row with
    | true =>
      have hd : (fsm.substitute leader).accept env row = (fsm.accept env row).substitute leader := by
        simp only [Fsm.accept, Fsm.decision, hrow, if_true, substitute]
      rw [hd, decisive_of_degraded hstale hrow]
      exact ih (h.degraded hrow) hrest
    | false =>
      have hplain := h.decision hrow
      have hled : (fsm.substitute leader).decision row =
          if row.side = leader.side then
            ({ fsm.substitute leader with state := .active }, .confirmation, .updateWatch)
          else if tfRank leader.timeframe < tfRank row.timeframe then
            (fsm.follow .reversed row, .reversal, .flipWatch)
          else ({ fsm.substitute leader with state := .contradicted }, .contradiction, .tightenWatch) := by
        rw [Fsm.decision, hrow, if_neg Bool.false_ne_true,
          if_neg (show (fsm.substitute leader).state ≠ .idle from h.started)]
        rfl
      rw [decisive_of_healthy hstale hrow, DecidedAlike]
      by_cases hfollow : followable row
      · rw [if_pos hfollow]
        rw [if_pos hfollow] at hplain
        by_cases hside : row.side = leader.side
        · rw [if_pos hside] at hled
          refine iff_of_false ?_ fun hagree => hagree.1 hside
          exact shown_ne_of_decision rfl (by simp [hled, hplain])
        · rw [if_neg hside] at hled
          by_cases hrank : tfRank leader.timeframe < tfRank row.timeframe
          · rw [if_pos hrank] at hled
            refine iff_of_true ?_ ⟨hside, hrank⟩
            simp only [Fsm.accept, hled, hplain]
            rfl
          · rw [if_neg hrank] at hled
            refine iff_of_false ?_ fun hagree => hrank hagree.2
            exact shown_ne_of_decision rfl (by simp [hled, hplain])
      · rw [if_neg hfollow]
        rw [if_neg hfollow] at hplain
        have hih := ih (h.accept env hrow hfollow) hrest
        by_cases hempty : row.side = ""
        · rw [if_pos hempty] at hplain
          by_cases hside : row.side = leader.side
          · rw [if_pos hside] at hled
            have hnext : (fsm.substitute leader).accept env row =
                (fsm.accept env row).substitute leader := by
              simp only [Fsm.accept, hled, hplain]
              rfl
            rw [hnext]
            exact hih.trans (and_iff_right (iff_of_true hside hempty)).symm
          · rw [if_neg hside] at hled
            refine iff_of_false ?_ fun hagree => hside (hagree.1.2 hempty)
            exact shown_ne_of_decision rfl (by rw [hled, hplain]; split_ifs <;> simp)
        · rw [if_neg hempty] at hplain
          by_cases hside : row.side = leader.side
          · rw [if_pos hside] at hled
            refine iff_of_false ?_ fun hagree => hempty (hagree.1.1 hside)
            exact shown_ne_of_decision rfl (by simp [hled, hplain])
          · -- a row of an unknown timeframe is above no leader
            have hrank : ¬tfRank leader.timeframe < tfRank row.timeframe := fun hlt =>
              hfollow ⟨hempty, (Nat.zero_le _).trans_lt hlt⟩
            rw [if_neg hside, if_neg hrank] at hled
            have hnext : (fsm.substitute leader).accept env row =
                (fsm.accept env row).substitute leader := by
              simp only [Fsm.accept, hled, hplain]
              rfl
            rw [hnext]
            exact hih.trans (and_iff_right (iff_of_false hside hempty)).symm

end Fsm
end ResearchLab.TradeThesis
