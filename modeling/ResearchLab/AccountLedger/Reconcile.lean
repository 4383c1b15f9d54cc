import ResearchLab.AccountLedger.Replay

/-!
# What a call does to the log

Each candidate is granted, turned into a rejection or passed over.
-/
namespace ResearchLab.AccountLedger
open Foundation Foundation.IntOrder

section
variable (ids : Ids) (model : MoneyModel) (log : List Event) (candidate : Event)

/-- No event of the log has the id of the candidate. -/
def Fresh : Prop := candidate.eventId ∉ log.map Event.eventId

instance decidableFresh : Decidable (Fresh log candidate) := inferInstanceAs (Decidable (¬_))

variable {ids model log candidate}

theorem reconcile_of_not_fresh (h : ¬Fresh log candidate) :
    reconcile ids model log candidate = log := if_pos (not_not.1 h)

theorem reconcile_opening (h : Fresh log candidate) (hkind : candidate.kind = .positionOpened) :
    reconcile ids model log candidate =
      if (replay model log).availableMarginUsdt < model.positionMarginUsdt then
        addEvent log (rejectionOf ids candidate)
      else log ++ [candidate] := by
  have hadd : addEvent log candidate = log ++ [candidate] := if_neg h
  rw [reconcile, if_neg h]
  simp only [hkind, hadd]

theorem reconcile_closing (h : Fresh log candidate) (hkind : candidate.kind = .positionClosed) :
    reconcile ids model log candidate =
      if candidate.paperTradeId ∉ (replay model log).activeTradeIds then log
      else log ++ [candidate] := by
  have hadd : addEvent log candidate = log ++ [candidate] := if_neg h
  rw [reconcile, if_neg h]
  simp only [hkind, hadd]

/-- Other events are not checked against the account. -/
theorem reconcile_other (h : Fresh log candidate) (hopened : candidate.kind ≠ .positionOpened)
    (hclosed : candidate.kind ≠ .positionClosed) :
    reconcile ids model log candidate = log ++ [candidate] := by
  have hadd : addEvent log candidate = log ++ [candidate] := if_neg h
  rw [reconcile, if_neg h]
  split
  · contradiction
  · contradiction
  · exact hadd

variable (ids model log candidate)

theorem prefix_addEvent : log <+: addEvent log candidate := by
  rw [addEvent]
  split_ifs
  · exact List.prefix_rfl
  · exact List.prefix_append log [candidate]

theorem eventId_mem_addEvent :
    candidate.eventId ∈ (addEvent log candidate).map Event.eventId := by
  rw [addEvent]
  split_ifs with hmem
  · exact hmem
  · simp

end

/-! ## Planned events -/

section
variable {ids : Ids} {model : MoneyModel} {log : List Event} {trades : List Trade}

/-- A group holds trades of its scenario. -/
theorem scenarioOf_grouped {s : String} {group : List Trade}
    (h : (grouped ids trades).row s = some group) {trade : Trade} (hmem : trade ∈ group) :
    scenarioOf ids trade = s := by
  obtain ⟨-, hk⟩ | ⟨rs, hrow, -⟩ := Table.mem_of_row_foldl_group (scenarioOf ids) h hmem
  · exact hk
  · rw [Table.empty_row] at hrow
    cases hrow

/-- The trade that a call funds for a scenario. -/
def currentOwner (ids : Ids) (log : List Event) (trades : List Trade) (s : String) : String :=
  ownerOf log s (((grouped ids trades).row s).getD [])

/-- A candidate is written from a trade, and an opening from the owner of its scenario. -/
theorem of_mem_candidates {c : Event} (h : c ∈ candidates ids model log trades) :
    ∃ kind trade ts reason, c = eventOf ids model kind trade ts reason ∧
      kind ≠ .allocationRejected ∧
      (kind = .positionOpened → c.paperTradeId = currentOwner ids log trades c.scenarioId) := by
  rw [candidates, mem_sortOn, planned, List.mem_flatMap] at h
  obtain ⟨⟨s, group⟩, hgroup, h⟩ := h
  obtain ⟨trade, htrade, h⟩ := List.mem_flatMap.1 h
  have hrow := Table.mem_entries.1 hgroup
  have howner : currentOwner ids log trades (scenarioOf ids trade) = ownerOf log s group := by
    rw [currentOwner, scenarioOf_grouped hrow htrade, hrow, Option.getD_some]
  rw [plannedOf] at h
  split_ifs at h with hid hterminal
  · rw [List.mem_singleton] at h
    exact ⟨_, _, _, _, h, by simp, by simp⟩
  · have hopened : trade.paperTradeId = currentOwner ids log trades (scenarioOf ids trade) :=
      (not_not.1 hid).trans howner.symm
    rcases List.mem_cons.1 h with h | h
    · exact ⟨_, _, _, _, h, by simp, fun _ => by rw [h]; exact hopened⟩
    · exact ⟨_, _, _, _, List.mem_singleton.1 h, by simp, by simp⟩
  · have hopened : trade.paperTradeId = currentOwner ids log trades (scenarioOf ids trade) :=
      (not_not.1 hid).trans howner.symm
    exact ⟨_, _, _, _, List.mem_singleton.1 h, by simp,
      fun _ => by rw [List.mem_singleton.1 h]; exact hopened⟩

end
end ResearchLab.AccountLedger
