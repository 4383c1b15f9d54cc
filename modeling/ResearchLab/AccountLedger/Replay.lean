import ResearchLab.AccountLedger.Ledger
import Mathlib

/-!
# Replaying a log

A log that opens each trade once and closes it once after its opening is replayed into an account
that can be read off its openings and closings, whatever the order in which they were written.
-/
namespace ResearchLab.AccountLedger
open Foundation Foundation.IntOrder

/-! ## Openings and closings -/

def openings (events : List Event) : List Event := events.filter fun e => e.kind = .positionOpened

def closings (events : List Event) : List Event := events.filter fun e => e.kind = .positionClosed

def tradesOf (events : List Event) : List String := events.map Event.paperTradeId

def Event.pnl (e : Event) : ℚ := e.pnlUsdt.getD 0

/-- What a closing takes from the balance. -/
def Event.loss (e : Event) : ℚ := max 0 (-e.pnl)

/-- What a closing adds to the balance. -/
def Event.gain (e : Event) : ℚ := max 0 e.pnl

def losses (closings : List Event) : ℚ := (closings.map Event.loss).sum

def gains (closings : List Event) : ℚ := (closings.map Event.gain).sum

/-- The results that the closings book. -/
def booked (events : List Event) : ℚ := ((closings events).map Event.pnl).sum

/-- The openings of trades that are not closed. -/
def active (events : List Event) : List Event :=
  (openings events).filter fun o => o.paperTradeId ∉ tradesOf (closings events)

section
variable {events events' : List Event} {e : Event} {k : String}

theorem mem_openings : e ∈ openings events ↔ e ∈ events ∧ e.kind = .positionOpened := by
  simp [openings]

theorem mem_closings : e ∈ closings events ↔ e ∈ events ∧ e.kind = .positionClosed := by
  simp [closings]

theorem mem_tradesOf_openings : k ∈ tradesOf (openings events) ↔
    ∃ o ∈ events, o.kind = .positionOpened ∧ o.paperTradeId = k := by
  simp [tradesOf, mem_openings, and_assoc]

theorem mem_tradesOf_closings : k ∈ tradesOf (closings events) ↔
    ∃ c ∈ events, c.kind = .positionClosed ∧ c.paperTradeId = k := by
  simp [tradesOf, mem_closings, and_assoc]

@[simp] theorem openings_append : openings (events ++ events') = openings events ++ openings events' :=
  List.filter_append ..

@[simp] theorem closings_append : closings (events ++ events') = closings events ++ closings events' :=
  List.filter_append ..

theorem openings_singleton :
    openings [e] = if e.kind = .positionOpened then [e] else [] := by
  by_cases h : e.kind = .positionOpened <;> simp [openings, h]

theorem closings_singleton :
    closings [e] = if e.kind = .positionClosed then [e] else [] := by
  by_cases h : e.kind = .positionClosed <;> simp [closings, h]

@[simp] theorem booked_append : booked (events ++ events') = booked events + booked events' := by
  simp [booked]

theorem mem_active : e ∈ active events ↔
    (e ∈ events ∧ e.kind = .positionOpened) ∧ e.paperTradeId ∉ tradesOf (closings events) := by
  simp [active, mem_openings]

theorem mem_tradesOf_active : k ∈ tradesOf (active events) ↔
    k ∈ tradesOf (openings events) ∧ k ∉ tradesOf (closings events) := by
  constructor
  · intro hk
    obtain ⟨o, ho, rfl⟩ := List.mem_map.1 hk
    obtain ⟨⟨hmem, hkind⟩, hopen⟩ := mem_active.1 ho
    exact ⟨mem_tradesOf_openings.2 ⟨o, hmem, hkind, rfl⟩, hopen⟩
  · rintro ⟨hk, hopen⟩
    obtain ⟨o, hmem, hkind, rfl⟩ := mem_tradesOf_openings.1 hk
    exact List.mem_map_of_mem (mem_active.2 ⟨⟨hmem, hkind⟩, hopen⟩)

theorem losses_le {l l' : List Event} (h : l.Sublist l') : losses l ≤ losses l' := by
  refine (h.map Event.loss).sum_le_sum fun q hq => ?_
  obtain ⟨c, -, rfl⟩ := List.mem_map.1 hq
  exact le_max_left _ _

theorem gains_le {l l' : List Event} (h : l.Sublist l') : gains l ≤ gains l' := by
  refine (h.map Event.gain).sum_le_sum fun q hq => ?_
  obtain ⟨c, -, rfl⟩ := List.mem_map.1 hq
  exact le_max_left _ _

/-- What closings book lies between their losses and their gains. -/
theorem sum_pnl_bounds (l : List Event) :
    -losses l ≤ (l.map Event.pnl).sum ∧ (l.map Event.pnl).sum ≤ gains l := by
  refine ⟨?_, List.sum_le_sum fun c _ => le_max_right _ _⟩
  have hsum : 0 ≤ (l.map fun c => c.pnl + c.loss).sum := by
    refine List.sum_nonneg fun q hq => ?_
    obtain ⟨c, -, rfl⟩ := List.mem_map.1 hq
    have hloss : -c.pnl ≤ c.loss := le_max_right _ _
    linarith
  rw [List.sum_map_add] at hsum
  rw [losses]
  linarith

end

/-! ## The replayed account -/

/-- Each trade is opened once, and closed once after its opening. -/
structure Settles (events : List Event) : Prop where
  openedOnce : (tradesOf (openings events)).Nodup
  closedOnce : (tradesOf (closings events)).Nodup
  opened : ∀ before c, before ++ [c] <+: events → c.kind = .positionClosed →
    c.paperTradeId ∈ tradesOf (openings before)

/-- The account that the openings and closings show. -/
structure Account.Shows (model : MoneyModel) (events : List Event) (a : Account) : Prop where
  balance : a.balance = model.depositUsdt + booked events
  reserved : a.reserved = (active events).map fun o => (o.paperTradeId, o.positionMarginUsdt)
  opened : a.opened = tradesOf (openings events)
  closed : a.closed = tradesOf (closings events)

section
variable {model : MoneyModel} {events : List Event} {e : Event}

theorem Settles.of_prefix {before : List Event} (h : Settles events) (hinit : before <+: events) :
    Settles before where
  openedOnce := h.openedOnce.sublist ((hinit.sublist.filter _).map _)
  closedOnce := h.closedOnce.sublist ((hinit.sublist.filter _).map _)
  opened before' c hinit' hkind := h.opened before' c (hinit'.trans hinit) hkind

/-- Only opened trades are closed. -/
theorem Settles.opened_of_closed (h : Settles events) {k : String}
    (hk : k ∈ tradesOf (closings events)) : k ∈ tradesOf (openings events) := by
  obtain ⟨c, hc, hkind, rfl⟩ := mem_tradesOf_closings.1 hk
  obtain ⟨before, after, rfl⟩ := List.append_of_mem hc
  have hopened := h.opened before c ⟨after, by simp⟩ hkind
  rw [mem_tradesOf_openings] at hopened ⊢
  obtain ⟨o, ho, hrest⟩ := hopened
  exact ⟨o, List.mem_append_left _ ho, hrest⟩

theorem replayFold_append (before : List Event) :
    replayFold model (before ++ [e]) = replayStep (replayFold model before) e := by
  simp [replayFold]

/-- A settled list is replayed into what its openings and closings show. -/
theorem Settles.shows (model : MoneyModel) (h : Settles events) : (replayFold model events).Shows model events := by
  induction events using List.reverseRecOn with
  | nil => exact ⟨by simp [replayFold, booked, closings], rfl, rfl, rfl⟩
  | append_singleton events e ih =>
    obtain ⟨hbalance, hreserved, hopened, hclosed⟩ := ih (h.of_prefix (List.prefix_append _ _))
    rw [replayFold_append]
    cases hkind : e.kind with
    | positionOpened =>
      have hnew : e.paperTradeId ∉ tradesOf (openings events) := by
        have hnodup := h.openedOnce
        rw [openings_append, openings_singleton, if_pos hkind, tradesOf, List.map_append] at hnodup
        exact fun hmem => (List.nodup_append.1 hnodup).2.2 _ hmem _ (by simp) rfl
      have hnot : e.paperTradeId ∉ tradesOf (closings events) := fun hmem =>
        hnew ((h.of_prefix (List.prefix_append _ _)).opened_of_closed hmem)
      have hclosings : closings (events ++ [e]) = closings events := by
        simp [closings_singleton, hkind]
      have hstep : replayStep (replayFold model events) e = (replayFold model events).open e := by
        simp only [replayStep, hkind, hopened, if_neg hnew]
      rw [hstep]
      refine ⟨?_, ?_, ?_, ?_⟩
      · rw [Account.open_balance, hbalance, booked, booked, hclosings]
      · rw [Account.open_reserved, hreserved, active, active, hclosings, openings_append,
          openings_singleton, if_pos hkind, List.filter_append, List.map_append]
        simp [hnot]
      · rw [Account.open_opened, hopened, openings_append, openings_singleton, if_pos hkind]
        simp [tradesOf]
      · rw [Account.open_closed, hclosed, hclosings]
    | positionClosed =>
      have hmem : e.paperTradeId ∈ tradesOf (openings events) :=
        h.opened events e List.prefix_rfl hkind
      have hnot : e.paperTradeId ∉ tradesOf (closings events) := by
        have hnodup := h.closedOnce
        rw [closings_append, closings_singleton, if_pos hkind, tradesOf, List.map_append] at hnodup
        exact fun hmem => (List.nodup_append.1 hnodup).2.2 _ hmem _ (by simp) rfl
      have hopenings : openings (events ++ [e]) = openings events := by
        simp [openings_singleton, hkind]
      have hclosings : closings (events ++ [e]) = closings events ++ [e] := by
        simp [closings_singleton, hkind]
      have hstep : replayStep (replayFold model events) e = (replayFold model events).close e := by
        simp only [replayStep, hkind, hopened, hclosed, if_pos (And.intro hmem hnot)]
      rw [hstep]
      refine ⟨?_, ?_, ?_, ?_⟩
      · rw [Account.close_balance, hbalance, booked, booked, hclosings]
        simp [Event.pnl, add_assoc]
      · have hactive : active (events ++ [e]) =
            (active events).filter fun o => o.paperTradeId ≠ e.paperTradeId := by
          rw [active, active, hclosings, hopenings, List.filter_filter]
          refine List.filter_congr fun o _ => ?_
          have hopen : o.paperTradeId ∉ tradesOf (closings events ++ [e]) ↔
              o.paperTradeId ≠ e.paperTradeId ∧ o.paperTradeId ∉ tradesOf (closings events) := by
            simp [tradesOf, and_comm]
          rw [decide_eq_decide.2 hopen, Bool.decide_and]
        rw [Account.close_reserved, hreserved, hactive, List.filter_map]
        rfl
      · rw [Account.close_opened, hopened, hopenings]
      · rw [Account.close_closed, hclosed, hclosings]
        simp [tradesOf]
    | _ =>
      have hopenings : openings (events ++ [e]) = openings events := by
        simp [openings_singleton, hkind]
      have hclosings : closings (events ++ [e]) = closings events := by
        simp [closings_singleton, hkind]
      simp only [replayStep, hkind]
      exact ⟨by rw [booked, hclosings]; exact hbalance,
        by rw [active, hopenings, hclosings]; exact hreserved, by rw [hopenings]; exact hopened,
        by rw [hclosings]; exact hclosed⟩

end

/-! ## Micro-units -/

/-- A whole number of micro-units. -/
def Micro (q : ℚ) : Prop := roundTo 6 q = q

theorem micro_iff {q : ℚ} : Micro q ↔ ∃ n : ℤ, q = n / 10 ^ 6 := by
  constructor
  · intro h
    exact ⟨roundHalfEven (q * 10 ^ 6), h.symm⟩
  · rintro ⟨n, rfl⟩
    rw [Micro, roundTo, div_mul_cancel₀ _ (by positivity), roundHalfEven_intCast]

theorem micro_roundTo (q : ℚ) : Micro (roundTo 6 q) := roundTo_roundTo 6 q

theorem micro_zero : Micro 0 := roundTo_zero 6

theorem Micro.add {p q : ℚ} (hp : Micro p) (hq : Micro q) : Micro (p + q) := by
  obtain ⟨m, rfl⟩ := micro_iff.1 hp
  obtain ⟨n, rfl⟩ := micro_iff.1 hq
  exact micro_iff.2 ⟨m + n, by push_cast; ring⟩

theorem Micro.sub {p q : ℚ} (hp : Micro p) (hq : Micro q) : Micro (p - q) := by
  obtain ⟨m, rfl⟩ := micro_iff.1 hp
  obtain ⟨n, rfl⟩ := micro_iff.1 hq
  exact micro_iff.2 ⟨m - n, by push_cast; ring⟩

theorem micro_sum {l : List ℚ} (h : ∀ q ∈ l, Micro q) : Micro l.sum := by
  induction l with
  | nil => exact micro_zero
  | cons q l ih =>
    rw [List.sum_cons]
    exact (h q List.mem_cons_self).add (ih fun p hp => h p (List.mem_cons_of_mem _ hp))

/-! ## In the order of the replay -/

section
variable {κ : Type*} [LinearOrder κ] {key : Event → κ} {log before : List Event} {a c : Event}

/-- What has a smaller key stands before. -/
theorem mem_before (hsorted : log.Pairwise fun a b => key a ≤ key b) (h : before ++ [c] <+: log)
    (ha : a ∈ log) (hlt : key a < key c) : a ∈ before := by
  obtain ⟨after, rfl⟩ := h
  have hmem : a ∈ before ++ [c] ++ after := ha
  rcases List.mem_append.1 hmem with hmem | hafter
  · rcases List.mem_append.1 hmem with hbefore | hc
    · exact hbefore
    · obtain rfl := List.mem_singleton.1 hc
      exact absurd hlt (lt_irrefl _)
  · exact absurd ((List.pairwise_append.1 hsorted).2.2 c (by simp) a hafter) (not_le.2 hlt)

theorem le_of_mem_before (hsorted : log.Pairwise fun a b => key a ≤ key b)
    (h : before ++ [c] <+: log) (ha : a ∈ before) : key a ≤ key c :=
  (List.pairwise_append.1 (hsorted.sublist h.sublist)).2.2 a ha c (by simp)

end

/-- Each trade of the log is opened once, and closed once and later. -/
structure Dated (log : List Event) : Prop where
  openedOnce : (tradesOf (openings log)).Nodup
  closedOnce : (tradesOf (closings log)).Nodup
  later : ∀ c ∈ closings log, ∃ o ∈ openings log,
    o.paperTradeId = c.paperTradeId ∧ replayKey o < replayKey c

section
variable {model : MoneyModel} {log log' : List Event}

theorem openings_perm (h : log.Perm log') : (openings log).Perm (openings log') := h.filter _

theorem closings_perm (h : log.Perm log') : (closings log).Perm (closings log') := h.filter _

theorem booked_perm (h : log.Perm log') : booked log = booked log' :=
  ((closings_perm h).map _).sum_eq

theorem active_perm (h : log.Perm log') : (active log).Perm (active log') := by
  have hclosed : ∀ o : Event, decide (o.paperTradeId ∉ tradesOf (closings log)) =
      decide (o.paperTradeId ∉ tradesOf (closings log')) := fun o =>
    decide_eq_decide.2 (not_congr ((closings_perm h).map _).mem_iff)
  rw [active, active, List.filter_congr fun o _ => hclosed o]
  exact (openings_perm h).filter _

/-- The sorted log opens each trade before it closes it. -/
theorem Dated.settles (h : Dated log) : Settles (sortOn replayKey log) where
  openedOnce := (((openings_perm (sortOn_perm _ log)).map _).nodup_iff).2 h.openedOnce
  closedOnce := (((closings_perm (sortOn_perm _ log)).map _).nodup_iff).2 h.closedOnce
  opened before c hinit hkind := by
    have hc : c ∈ log := mem_sortOn.1 (hinit.subset (by simp))
    obtain ⟨o, ho, htrade, hlt⟩ := h.later c (mem_closings.2 ⟨hc, hkind⟩)
    obtain ⟨ho, hokind⟩ := mem_openings.1 ho
    exact mem_tradesOf_openings.2
      ⟨o, mem_before (sortOn_pairwise _ log) hinit (mem_sortOn.2 ho) hlt, hokind, htrade⟩

/-- The margin that is available when the whole log is replayed. -/
theorem Dated.available_eq (h : Dated log) (hdeposit : Micro model.depositUsdt)
    (hmargin : ∀ e ∈ log, Micro e.positionMarginUsdt) (hpnl : ∀ e ∈ log, Micro e.pnl) :
    (replay model log).availableMarginUsdt =
      model.depositUsdt + booked log - ((active log).map Event.positionMarginUsdt).sum := by
  have hshows := h.settles.shows model
  have hactive := active_perm (sortOn_perm replayKey log)
  have hsum : (replayFold model (sortOn replayKey log)).reservedSum =
      ((active log).map Event.positionMarginUsdt).sum := by
    rw [Account.reservedSum, hshows.reserved, List.map_map]
    exact (hactive.map _).sum_eq
  have hbalance : (replayFold model (sortOn replayKey log)).balance =
      model.depositUsdt + booked log := by
    rw [hshows.balance, booked_perm (sortOn_perm replayKey log)]
  have hreserved : Micro ((active log).map Event.positionMarginUsdt).sum := by
    refine micro_sum fun q hq => ?_
    obtain ⟨o, ho, rfl⟩ := List.mem_map.1 hq
    exact hmargin o (mem_active.1 ho).1.1
  have hbooked : Micro (booked log) := by
    refine micro_sum fun q hq => ?_
    obtain ⟨c, hc, rfl⟩ := List.mem_map.1 hq
    exact hpnl c (mem_closings.1 hc).1
  simp only [replay, summarize, hsum, hbalance]
  rw [show roundTo 6 _ = _ from hreserved]
  exact (hdeposit.add hbooked).sub hreserved

/-- The active trades of the snapshot. -/
theorem Dated.mem_activeTradeIds (h : Dated log) {k : String} :
    k ∈ (replay model log).activeTradeIds ↔ k ∈ tradesOf (active log) := by
  have hshows := h.settles.shows model
  simp only [replay, summarize, mem_sortOn, hshows.reserved, List.map_map]
  exact ((active_perm (sortOn_perm replayKey log)).map _).mem_iff

end
end ResearchLab.AccountLedger
