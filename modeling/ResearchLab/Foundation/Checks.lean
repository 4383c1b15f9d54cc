import Mathlib.Algebra.Notation.Defs
import Mathlib.Data.List.Forall2
import Mathlib.Logic.Basic

/-!
# Chains of checks

When a computation that may raise returns: every check before the result passed.
-/
namespace ResearchLab.Foundation

universe u v w

variable {ε : Type u} {α : Type v} {β : Type v}

theorem bind_eq_ok {x : Except ε α} {f : α → Except ε β} {b : β} :
    (x >>= f) = .ok b ↔ ∃ a, x = .ok a ∧ f a = .ok b := by
  cases x with
  | error e => simp [bind, Except.bind]
  | ok a => simp [bind, Except.bind]

theorem check_eq_ok {p : Prop} [Decidable p] {e : ε} {x : Except ε α} {a : α} :
    (if p then .error e else x) = .ok a ↔ ¬ p ∧ x = .ok a := by
  by_cases hp : p <;> simp [hp]

theorem map_eq_ok {x : Except ε α} {f : α → β} {b : β} :
    x.map f = .ok b ↔ ∃ a, x = .ok a ∧ f a = b := by
  cases x with
  | error e => simp [Except.map]
  | ok a => simp [Except.map]

/-- A loop in which no item raises. -/
theorem mapM_eq_ok {γ : Type w} {f : γ → Except ε α} {g : γ → α} {l : List γ}
    (h : ∀ x ∈ l, f x = .ok (g x)) : l.mapM f = .ok (l.map g) := by
  induction l with
  | nil => rfl
  | cons x l ih =>
    rw [List.mapM_cons, h x List.mem_cons_self, ih fun y hy => h y (List.mem_cons_of_mem _ hy)]
    rfl

/-- A loop that returns: every item gave its value. -/
theorem mapM_eq_ok_iff {γ : Type w} {f : γ → Except ε α} {l : List γ} {values : List α} :
    l.mapM f = .ok values ↔ List.Forall₂ (fun x a => f x = .ok a) l values := by
  induction l generalizing values with
  | nil =>
    rw [List.forall₂_nil_left_iff, List.mapM_nil]
    exact ⟨fun h => (Except.ok.inj h).symm, fun h => h ▸ rfl⟩
  | cons x l ih =>
    rw [List.mapM_cons, bind_eq_ok, List.forall₂_cons_left_iff]
    constructor
    · rintro ⟨a, ha, h⟩
      obtain ⟨as, has, h⟩ := bind_eq_ok.1 h
      exact ⟨a, as, ha, ih.1 has, (Except.ok.inj h).symm⟩
    · rintro ⟨a, as, ha, has, rfl⟩
      exact ⟨a, ha, bind_eq_ok.2 ⟨as, ih.2 has, rfl⟩⟩

/-- A loop that returns, when every item that gives a value gives its own. -/
theorem mapM_eq_map {γ : Type w} {f : γ → Except ε α} {g : γ → α} {P : γ → Prop} {l : List γ}
    {values : List α} (hf : ∀ x a, f x = .ok a → a = g x ∧ P x) (h : l.mapM f = .ok values) :
    values = l.map g ∧ ∀ x ∈ l, P x := by
  rw [mapM_eq_ok_iff] at h
  induction h with
  | nil => exact ⟨rfl, by simp⟩
  | cons hx _ ih =>
    obtain ⟨rfl, hP⟩ := hf _ _ hx
    obtain ⟨rfl, hrest⟩ := ih
    exact ⟨rfl, List.forall_mem_cons.2 ⟨hP, hrest⟩⟩

/-- A loop of checks passes if and only if every item passes. -/
theorem forM_eq_ok {γ : Type w} {f : γ → Except ε PUnit} {l : List γ} :
    l.forM f = .ok ⟨⟩ ↔ ∀ x ∈ l, f x = .ok ⟨⟩ := by
  induction l with
  | nil => exact ⟨fun _ x hx => absurd hx List.not_mem_nil, fun _ => rfl⟩
  | cons x l ih =>
    rw [List.forall_mem_cons, ← ih]
    refine bind_eq_ok.trans ⟨?_, fun h => ⟨⟨⟩, h.1, h.2⟩⟩
    rintro ⟨_, hx, hl⟩
    exact ⟨hx, hl⟩

/-- A loop of rounds that return returns. -/
theorem foldlM_returns {σ : Type u} {f : σ → α → Except ε σ} {l : List α}
    (hround : ∀ x ∈ l, ∀ s, ∃ t, f s x = .ok t) (s : σ) :
    ∃ t, l.foldlM f s = .ok t := by
  induction l generalizing s with
  | nil => exact ⟨s, rfl⟩
  | cons x l ih =>
    obtain ⟨s', hx⟩ := hround x List.mem_cons_self s
    obtain ⟨t, hrest⟩ := ih (fun y hy => hround y (List.mem_cons_of_mem _ hy)) s'
    rw [List.foldlM_cons]
    exact ⟨t, bind_eq_ok.2 ⟨s', hx, hrest⟩⟩

/-! ## Defaults -/

/-- `value or default` of a number that may be absent. -/
def orElse {α : Type u} [Zero α] [DecidableEq α] (value : Option α) (default : α) : α :=
  let v := value.getD 0
  if v = 0 then default else v

section
variable {α : Type u} [Zero α] [DecidableEq α]

theorem orElse_eq {x d : α} (h : x ≠ 0) : orElse (some x) d = x := if_neg h

@[simp] theorem orElse_none (d : α) : orElse none d = d := if_pos rfl

@[simp] theorem orElse_zero (x : α) : orElse (some x) 0 = x := by
  by_cases h : x = 0
  · rw [h]
    exact if_pos rfl
  · exact orElse_eq h

end
end ResearchLab.Foundation
