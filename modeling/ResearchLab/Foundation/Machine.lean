import Mathlib.Order.Basic
import Mathlib.Data.List.Basic

/-!
# Runs of a machine

A machine moves by inputs. Whatever is not determined by the state (which process moves,
what a clock or a probe answers, where a crash falls) is part of the input, so that a
machine is executable and a run is a list of inputs.
-/
namespace ResearchLab.Foundation

universe u v

structure Machine (σ : Type u) (α : Type v) where
  init : σ → Prop
  enabled : σ → α → Prop
  step : σ → α → σ

namespace Machine

variable {σ : Type u} {α : Type v} {M : Machine σ α}

/-- The run that feeds a list of enabled inputs to the machine. -/
inductive Steps (M : Machine σ α) : σ → List α → σ → Prop
  | nil (s : σ) : Steps M s [] s
  | cons {s t : σ} {a : α} {as : List α} (enabled : M.enabled s a)
      (rest : Steps M (M.step s a) as t) : Steps M s (a :: as) t

/-- The states of all runs from an initial state. -/
inductive Reachable (M : Machine σ α) : σ → Prop
  | init {s : σ} (start : M.init s) : Reachable M s
  | step {s : σ} {a : α} (prior : Reachable M s) (enabled : M.enabled s a) :
      Reachable M (M.step s a)

theorem Steps.reachable {s t : σ} {as : List α} (hs : M.Steps s as t)
    (hr : M.Reachable s) : M.Reachable t := by
  induction hs with
  | nil => exact hr
  | cons ha _ ih => exact ih (.step hr ha)

theorem Steps.append {s t u : σ} {as bs : List α} (h₁ : M.Steps s as t)
    (h₂ : M.Steps t bs u) : M.Steps s (as ++ bs) u := by
  induction h₁ with
  | nil => exact h₂
  | cons ha _ ih => exact .cons ha (ih h₂)

/-- The invariant rule: what holds initially and survives every enabled step from a
reachable state holds in every reachable state. -/
theorem Reachable.invariant {P : σ → Prop} (hinit : ∀ s, M.init s → P s)
    (hstep : ∀ s a, M.Reachable s → P s → M.enabled s a → P (M.step s a))
    {s : σ} (hs : M.Reachable s) : P s := by
  induction hs with
  | init h => exact hinit _ h
  | step hr ha ih => exact hstep _ _ hr ih ha

/-- The run rule: what survives every enabled step from a reachable state survives
every run from one. -/
theorem Steps.preserves {P : σ → Prop}
    (hstep : ∀ s a, M.Reachable s → P s → M.enabled s a → P (M.step s a))
    {s t : σ} {as : List α} (hs : M.Steps s as t) (hr : M.Reachable s) (hp : P s) :
    P t := by
  induction hs with
  | nil => exact hp
  | cons ha _ ih => exact ih (.step hr ha) (hstep _ _ hr hp ha)

/-- A reflexive and transitive relation between the ends of every step relates the ends
of every run. -/
theorem Steps.relates {R : σ → σ → Prop} (hrefl : ∀ s, R s s)
    (htrans : ∀ s t u, R s t → R t u → R s u)
    (hstep : ∀ s a, M.Reachable s → M.enabled s a → R s (M.step s a))
    {s t : σ} {as : List α} (hs : M.Steps s as t) (hr : M.Reachable s) : R s t := by
  induction hs with
  | nil => exact hrefl _
  | cons ha _ ih => exact htrans _ _ _ (hstep _ _ hr ha) (ih (.step hr ha))

/-- Feeding inputs without looking at the guard. -/
def run (M : Machine σ α) : σ → List α → σ := List.foldl M.step

@[simp] theorem run_nil (s : σ) : M.run s [] = s := rfl

@[simp] theorem run_cons (s : σ) (a : α) (as : List α) :
    M.run s (a :: as) = M.run (M.step s a) as := rfl

/-- A list of inputs is a run when each input is enabled where it is fed. -/
def Runs (M : Machine σ α) : σ → List α → Prop
  | _, [] => True
  | s, a :: as => M.enabled s a ∧ Runs M (M.step s a) as

/-- A run is checked one input after another. -/
instance runsDecidable [∀ s a, Decidable (M.enabled s a)] :
    ∀ (s : σ) (as : List α), Decidable (M.Runs s as)
  | _, [] => inferInstanceAs (Decidable True)
  | s, a :: as =>
    haveI := runsDecidable (M.step s a) as
    inferInstanceAs (Decidable (M.enabled s a ∧ M.Runs (M.step s a) as))

theorem Runs.steps {s : σ} {as : List α} (h : M.Runs s as) : M.Steps s as (M.run s as) := by
  induction as generalizing s with
  | nil => exact .nil s
  | cons a as ih => exact .cons h.1 (ih h.2)

theorem reachable_run {s : σ} (as : List α) (start : M.init s) (h : M.Runs s as) :
    M.Reachable (M.run s as) := h.steps.reachable (.init start)

end Machine
end ResearchLab.Foundation
