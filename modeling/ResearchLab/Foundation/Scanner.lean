import Mathlib.Data.List.Basic
import Mathlib.Data.List.TakeDrop
import Mathlib.Order.Lattice

/-!
# Loops that stop at their first exit

A scanner looks at the items of a list in order. In its state it either exits at an item or
moves on to its next state. The offset of the exit is the number of items before it.
-/
namespace ResearchLab.Foundation

universe u v w

structure Scanner (σ : Type u) (β : Type v) (ε : Type w) where
  exit? : σ → β → Option ε
  next : σ → β → σ

namespace Scanner

variable {σ : Type u} {β : Type v} {ε : Type w} (S : Scanner σ β ε)

def run : σ → List β → Option (ℕ × ε)
  | _, [] => none
  | s, b :: bs =>
      match S.exit? s b with
      | some e => some (0, e)
      | none => (run (S.next s b) bs).map fun r => (r.1 + 1, r.2)

/-- The state in which the run ends. -/
def last : σ → List β → σ
  | s, [] => s
  | s, b :: bs =>
      match S.exit? s b with
      | some _ => s
      | none => last (S.next s b) bs

/-- The state before the item at an offset, when nothing before it exits. -/
def stateAt (s : σ) (l : List β) (k : ℕ) : σ := (l.take k).foldl S.next s

/-- No item before the offset exits. -/
def Open (s : σ) (l : List β) (k : ℕ) : Prop :=
  ∀ i < k, ∀ b, l[i]? = some b → S.exit? (S.stateAt s l i) b = none

@[simp] theorem stateAt_zero (s : σ) (l : List β) : S.stateAt s l 0 = s := rfl

theorem stateAt_cons (s : σ) (b : β) (bs : List β) (k : ℕ) :
    S.stateAt s (b :: bs) (k + 1) = S.stateAt (S.next s b) bs k := rfl

theorem stateAt_succ {s : σ} {l : List β} {k : ℕ} {b : β} (h : l[k]? = some b) :
    S.stateAt s l (k + 1) = S.next (S.stateAt s l k) b := by
  simp [stateAt, List.take_add_one, h]

theorem open_cons {s : σ} {b : β} {bs : List β} {k : ℕ} :
    S.Open s (b :: bs) (k + 1) ↔ S.exit? s b = none ∧ S.Open (S.next s b) bs k := by
  constructor
  · intro h
    exact ⟨h 0 (by omega) b rfl, fun i hi c hc => h (i + 1) (by omega) c hc⟩
  · rintro ⟨hb, h⟩ i hi c hc
    cases i with
    | zero =>
      obtain rfl := Option.some.inj hc
      exact hb
    | succ i => exact h i (by omega) c hc

/-- The run exits where an item exits and none before it does. -/
theorem run_eq_some {s : σ} {l : List β} {k : ℕ} {e : ε} :
    S.run s l = some (k, e) ↔
      S.Open s l k ∧ ∃ b, l[k]? = some b ∧ S.exit? (S.stateAt s l k) b = some e := by
  induction l generalizing s k with
  | nil => simp [run]
  | cons b bs ih =>
    simp only [run]
    cases hb : S.exit? s b with
    | some e' =>
      cases k with
      | zero => simp [Open, hb]
      | succ k => simp [open_cons, hb]
    | none =>
      cases k with
      | zero => simp [hb]
      | succ k =>
        simp only [Option.map_eq_some_iff, Prod.mk.injEq, Prod.exists, open_cons, hb, true_and,
          List.getElem?_cons_succ, S.stateAt_cons]
        rw [← ih]
        constructor
        · rintro ⟨k', e', h, hk, rfl⟩
          obtain rfl : k' = k := by omega
          exact h
        · exact fun h => ⟨k, e, h, rfl, rfl⟩

theorem run_eq_none {s : σ} {l : List β} : S.run s l = none ↔ S.Open s l l.length := by
  induction l generalizing s with
  | nil => simp [run, Open]
  | cons b bs ih =>
    simp only [run, List.length_cons, open_cons]
    cases hb : S.exit? s b with
    | some e => simp
    | none => simp [ih]

theorem last_of_some {s : σ} {l : List β} {k : ℕ} {e : ε} (h : S.run s l = some (k, e)) :
    S.last s l = S.stateAt s l k := by
  induction l generalizing s k with
  | nil => simp [run] at h
  | cons b bs ih =>
    simp only [run] at h
    simp only [last]
    cases hb : S.exit? s b with
    | some e' =>
      obtain ⟨rfl, -⟩ : 0 = k ∧ e' = e := by simpa [hb] using h
      rfl
    | none =>
      obtain ⟨k', e', h', rfl, rfl⟩ : ∃ k' e', S.run (S.next s b) bs = some (k', e') ∧
          k' + 1 = k ∧ e' = e := by simpa [hb] using h
      rw [S.stateAt_cons]
      exact ih h'

theorem last_of_none {s : σ} {l : List β} (h : S.run s l = none) :
    S.last s l = S.stateAt s l l.length := by
  induction l generalizing s with
  | nil => rfl
  | cons b bs ih =>
    simp only [run] at h
    simp only [last]
    cases hb : S.exit? s b with
    | some e => simp [hb] at h
    | none =>
      rw [List.length_cons, S.stateAt_cons]
      exact ih (by simpa [hb] using h)

theorem lt_of_run {s : σ} {l : List β} {k : ℕ} {e : ε} (h : S.run s l = some (k, e)) :
    k < l.length := by
  obtain ⟨-, b, hb, -⟩ := (S.run_eq_some).1 h
  exact (List.getElem?_eq_some_iff.1 hb).1

theorem stateAt_of_prefix {s : σ} {l l' : List β} {k i : ℕ} (hl : l.take k = l'.take k)
    (hi : i ≤ k) : S.stateAt s l' i = S.stateAt s l i := by
  have := congrArg (List.take i) hl
  simp only [List.take_take, Nat.min_eq_left hi] at this
  rw [stateAt, stateAt, this]

/-- Two scanners that exit alike and pass through the same states up to an exit of the one
have that exit in common, whatever lies behind it. -/
theorem run_of_agree {S S' : Scanner σ β ε} {s : σ} {l l' : List β} {k : ℕ} {e : ε}
    (h : S.run s l = some (k, e)) (hl : l.take (k + 1) = l'.take (k + 1))
    (hexit : ∀ s b, S'.exit? s b = S.exit? s b)
    (hstate : ∀ i ≤ k, S'.stateAt s l' i = S.stateAt s l i) : S'.run s l' = some (k, e) := by
  have hget : ∀ i ≤ k, l'[i]? = l[i]? := by
    intro i hi
    have := congrArg (·[i]?) hl
    simpa [List.getElem?_take, Nat.lt_succ_iff.2 hi] using this.symm
  obtain ⟨hopen, b, hb, he⟩ := (S.run_eq_some).1 h
  refine (S'.run_eq_some).2 ⟨fun i hi c hc => ?_, b, by rw [hget k le_rfl, hb], ?_⟩
  · rw [hstate i hi.le, hexit]
    exact hopen i hi c (by rw [← hget i hi.le, hc])
  · rw [hstate k le_rfl, hexit, he]

/-- The run depends on no item behind its exit. -/
theorem run_of_prefix {s : σ} {l l' : List β} {k : ℕ} {e : ε} (h : S.run s l = some (k, e))
    (hl : l.take (k + 1) = l'.take (k + 1)) : S.run s l' = some (k, e) :=
  run_of_agree h hl (fun _ _ => rfl) fun _ hi => S.stateAt_of_prefix hl (by omega)

/-- What holds at the start and survives every item holds before every item. -/
theorem stateAt_induction {P : σ → Prop} {s : σ} {l : List β} (hinit : P s)
    (hstep : ∀ s b, b ∈ l → P s → P (S.next s b)) (k : ℕ) : P (S.stateAt s l k) := by
  induction k with
  | zero => exact hinit
  | succ k ih =>
    cases hb : l[k]? with
    | none =>
      have hk : l.length ≤ k := List.getElem?_eq_none_iff.1 hb
      rw [stateAt, List.take_of_length_le (by omega), ← List.take_of_length_le hk]
      exact ih
    | some b =>
      rw [S.stateAt_succ hb]
      exact hstep _ b (List.mem_of_getElem? hb) ih

/-- The state in which a run ends is one before an item. -/
theorem exists_last (s : σ) (l : List β) : ∃ k, S.last s l = S.stateAt s l k := by
  cases h : S.run s l with
  | none => exact ⟨_, S.last_of_none h⟩
  | some r => exact ⟨r.1, S.last_of_some h⟩

/-! ## Interrupted runs -/

/-- A run over two lists goes on over the second where it did not exit in the first. -/
theorem run_append {s : σ} {l : List β} (l' : List β) (h : S.run s l = none) :
    S.run s (l ++ l') = (S.run (S.last s l) l').map fun r => (l.length + r.1, r.2) := by
  induction l generalizing s with
  | nil => simp [last]
  | cons b bs ih =>
    simp only [run] at h
    simp only [List.cons_append, run, last]
    cases hb : S.exit? s b with
    | some e => simp [hb] at h
    | none =>
      rw [ih (by simpa [hb] using h)]
      rcases S.run (S.last (S.next s b) bs) l' with _ | r
      · rfl
      · simp [Nat.add_right_comm]

theorem last_append {s : σ} {l : List β} (l' : List β) (h : S.run s l = none) :
    S.last s (l ++ l') = S.last (S.last s l) l' := by
  induction l generalizing s with
  | nil => rfl
  | cons b bs ih =>
    simp only [run] at h
    simp only [List.cons_append, last]
    cases hb : S.exit? s b with
    | some e => simp [hb] at h
    | none => exact ih (by simpa [hb] using h)

/-- Two runs whose states stay related exit together, at an item and with exits that are related,
or not at all. -/
theorem run_related {R : σ → σ → Prop} {E : β → ε → ε → Prop} {s t : σ} {l : List β} (hst : R s t)
    (hstep : ∀ s t b, b ∈ l → R s t →
      (∃ e e', S.exit? s b = some e ∧ S.exit? t b = some e' ∧ E b e e') ∨
        S.exit? s b = none ∧ S.exit? t b = none ∧ R (S.next s b) (S.next t b)) :
    (∃ k b e e', l[k]? = some b ∧ S.run s l = some (k, e) ∧ S.run t l = some (k, e') ∧ E b e e') ∨
      S.run s l = none ∧ S.run t l = none ∧ R (S.last s l) (S.last t l) := by
  induction l generalizing s t with
  | nil => exact .inr ⟨rfl, rfl, hst⟩
  | cons b bs ih =>
    rcases hstep s t b List.mem_cons_self hst with ⟨e, e', he, he', hE⟩ | ⟨hs, ht, hnext⟩
    · exact .inl ⟨0, b, e, e', rfl, by simp [run, he], by simp [run, he'], hE⟩
    · rcases ih hnext fun s t c hc => hstep s t c (List.mem_cons_of_mem _ hc) with
        ⟨k, c, e, e', hc, hk, hk', hE⟩ | ⟨hnone, hnone', hR⟩
      · exact .inl ⟨k + 1, c, e, e', hc, by simp [run, hs, hk], by simp [run, ht, hk'], hE⟩
      · exact .inr ⟨by simp [run, hs, hnone], by simp [run, ht, hnone'],
          by simpa [last, hs, ht] using hR⟩

/-- Two scanners whose states stay related and that exit alike in related states exit alike. -/
theorem run_congr {τ : Type*} {S : Scanner σ β ε} {S' : Scanner τ β ε} {R : σ → τ → Prop} {s : σ}
    {t : τ} {l : List β} (hst : R s t)
    (hstep : ∀ s t b, b ∈ l → R s t →
      S.exit? s b = S'.exit? t b ∧ (S.exit? s b = none → R (S.next s b) (S'.next t b))) :
    S.run s l = S'.run t l := by
  induction l generalizing s t with
  | nil => rfl
  | cons b bs ih =>
    obtain ⟨hexit, hnext⟩ := hstep s t b List.mem_cons_self hst
    simp only [run, ← hexit]
    cases hb : S.exit? s b with
    | some e => rfl
    | none => simp only [ih (hnext hb) fun s t c hc => hstep s t c (List.mem_cons_of_mem _ hc)]

/-- What every item that does not exit leaves in the state, the last one leaves at the end. -/
theorem last_spec {P : β → σ → Prop} (hP : ∀ s b, S.exit? s b = none → P b (S.next s b)) {s : σ}
    {l : List β} (h : S.run s l = none) {b : β} (hb : l.getLast? = some b) : P b (S.last s l) := by
  induction l generalizing s with
  | nil => simp at hb
  | cons a bs ih =>
    simp only [run] at h
    simp only [last]
    cases ha : S.exit? s a with
    | some e => simp [ha] at h
    | none =>
      cases bs with
      | nil =>
        obtain rfl : a = b := by simpa using hb
        exact hP s a ha
      | cons c bs => exact ih (by simpa [ha] using h) (by simpa using hb)

end Scanner
end ResearchLab.Foundation
