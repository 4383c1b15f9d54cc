import Mathlib.Data.List.Forall2
import Mathlib.Data.Option.Basic

/-!
# Lists related item by item
-/
namespace ResearchLab.Foundation

universe u v

variable {α : Type u} {β : Type v} {R : α → β → Prop} {l : List α} {l' : List β}

theorem exists_related_left (h : List.Forall₂ R l l') {a : α} (ha : a ∈ l) :
    ∃ b ∈ l', R a b := by
  induction h with
  | nil => cases ha
  | @cons a' b l l' hr _ ih =>
    rcases List.mem_cons.1 ha with rfl | ha
    · exact ⟨b, List.mem_cons_self, hr⟩
    · obtain ⟨b', hb', hr'⟩ := ih ha
      exact ⟨b', List.mem_cons_of_mem _ hb', hr'⟩

theorem exists_related_right (h : List.Forall₂ R l l') {b : β} (hb : b ∈ l') :
    ∃ a ∈ l, R a b :=
  exists_related_left (R := fun b a => R a b) h.flip hb

/-- Related lists have related last items. -/
theorem getLast?_related (h : List.Forall₂ R l l') : Option.Rel R l.getLast? l'.getLast? := by
  induction h with
  | nil => exact .none
  | @cons a b l l' hr _ ih =>
    rw [List.getLast?_cons, List.getLast?_cons]
    generalize l.getLast? = last, l'.getLast? = last' at ih
    cases ih with
    | none => exact .some hr
    | some h => exact .some h

end ResearchLab.Foundation
