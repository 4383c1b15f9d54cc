import Mathlib
import ResearchLab.Foundation.Arrays

/-!
# Lists that agree on a prefix

Two lists that agree up to `n` give the same windows that end there, and a series whose value at
an index looks back only agrees up to `n` as well.
-/
namespace ResearchLab.Foundation

universe u v w

variable {α : Type u} {β : Type v} {γ : Type w}

/-- Both lists reach to `n`, with the same elements before it. -/
structure AgreeTo (n : ℕ) (xs ys : List α) : Prop where
  take : xs.take n = ys.take n
  left : n ≤ xs.length
  right : n ≤ ys.length

namespace AgreeTo

variable {n : ℕ} {xs ys : List α}

theorem refl (h : n ≤ xs.length) : AgreeTo n xs xs := ⟨rfl, h, h⟩

theorem symm (h : AgreeTo n xs ys) : AgreeTo n ys xs := ⟨h.take.symm, h.right, h.left⟩

theorem mono (h : AgreeTo n xs ys) {m : ℕ} (hm : m ≤ n) : AgreeTo m xs ys := by
  refine ⟨?_, hm.trans h.left, hm.trans h.right⟩
  have htake := congrArg (List.take m) h.take
  rwa [List.take_take, List.take_take, Nat.min_eq_left hm] at htake

theorem map (h : AgreeTo n xs ys) (f : α → β) : AgreeTo n (xs.map f) (ys.map f) := by
  refine ⟨?_, ?_, ?_⟩
  · rw [← List.map_take, ← List.map_take, h.take]
  · rw [List.length_map]
    exact h.left
  · rw [List.length_map]
    exact h.right

theorem getElem? (h : AgreeTo n xs ys) {i : ℕ} (hi : i < n) : xs[i]? = ys[i]? := by
  calc xs[i]? = (xs.take n)[i]? := (List.getElem?_take_of_lt hi).symm
    _ = (ys.take n)[i]? := by rw [h.take]
    _ = ys[i]? := List.getElem?_take_of_lt hi

theorem getD (h : AgreeTo n xs ys) {i : ℕ} (hi : i < n) (fallback : α) :
    xs.getD i fallback = ys.getD i fallback := by
  rw [List.getD_eq_getElem?_getD, List.getD_eq_getElem?_getD, h.getElem? hi]

theorem drop (h : AgreeTo n xs ys) (m : ℕ) : AgreeTo (n - m) (xs.drop m) (ys.drop m) := by
  refine ⟨?_, ?_, ?_⟩
  · rw [List.take_drop, List.take_drop]
    by_cases hm : m ≤ n
    · rw [Nat.add_sub_cancel' hm, h.take]
    · have hzero : n - m = 0 := by omega
      rw [hzero, Nat.add_zero, List.drop_take_self, List.drop_take_self]
  · rw [List.length_drop]
    exact Nat.sub_le_sub_right h.left m
  · rw [List.length_drop]
    exact Nat.sub_le_sub_right h.right m

theorem slice (h : AgreeTo n xs ys) (i : ℕ) {j : ℕ} (hj : j ≤ n) :
    Foundation.slice xs i j = Foundation.slice ys i j :=
  ((h.mono hj).drop i).take

theorem lanes (h : AgreeTo n xs ys) {xs' ys' : List β} (h' : AgreeTo n xs' ys')
    (f : α → β → γ) : AgreeTo n (lanes f xs xs') (lanes f ys ys') := by
  refine ⟨?_, ?_, ?_⟩
  · rw [Foundation.lanes, Foundation.lanes, List.take_zipWith, List.take_zipWith, h.take, h'.take]
  · rw [Foundation.lanes, List.length_zipWith]
    exact le_min h.left h'.left
  · rw [Foundation.lanes, List.length_zipWith]
    exact le_min h.right h'.right

/-- A series of `N` values, each read off the list at its own index. -/
theorem range {N N' : ℕ} {f f' : ℕ → β} (hN : n ≤ N) (hN' : n ≤ N') (h : ∀ i < n, f i = f' i) :
    AgreeTo n ((List.range N).map f) ((List.range N').map f') := by
  refine ⟨?_, by simpa using hN, by simpa using hN'⟩
  rw [← List.map_take, ← List.map_take, List.take_range, List.take_range, Nat.min_eq_left hN,
    Nat.min_eq_left hN']
  exact List.map_congr_left fun i hi => h i (List.mem_range.1 hi)

theorem replicate {z : β} {N N' : ℕ} (hN : n ≤ N) (hN' : n ≤ N') :
    AgreeTo n (List.replicate N z) (List.replicate N' z) := by
  refine ⟨?_, by rwa [List.length_replicate], by rwa [List.length_replicate]⟩
  rw [List.take_replicate, List.take_replicate, Nat.min_eq_left hN, Nat.min_eq_left hN']

/-- A series that has not warmed up before `n`. -/
theorem cold {z : β} {N warm : ℕ} {rest : List β} (hN : n ≤ N) (hwarm : n ≤ warm) :
    AgreeTo n (List.replicate N z) (List.replicate warm z ++ rest) := by
  have hzero := replicate (z := z) hN hwarm
  refine ⟨?_, hzero.left, ?_⟩
  · rw [List.take_append_of_le_length (by rwa [List.length_replicate])]
    exact hzero.take
  · rw [List.length_append]
    exact hzero.right.trans (Nat.le_add_right _ _)

section Smoothed

variable {z seed seed' : β} {warm : ℕ} {step : β → α → β}

/-- A smoothed series: zero while it warms up, then seeded and carried on. -/
theorem warmUp (h : AgreeTo (n - (warm + 1)) xs ys) (hseed : warm < n → seed = seed') :
    AgreeTo n (List.replicate warm z ++ xs.scanl step seed)
      (List.replicate warm z ++ ys.scanl step seed') := by
  have hleft := h.left
  have hright := h.right
  refine ⟨?_, ?_, ?_⟩
  · rw [List.take_append, List.take_append, List.length_replicate]
    congr 1
    obtain hle | ⟨k, hk⟩ : n - warm = 0 ∨ ∃ k, n - warm = k + 1 := by
      cases n - warm with
      | zero => exact .inl rfl
      | succ k => exact .inr ⟨k, rfl⟩
    · rw [hle, List.take_zero, List.take_zero]
    · have hk' : n - (warm + 1) = k := by omega
      rw [hk, List.take_scanl, List.take_scanl, hseed (by omega), ← hk', h.take]
  · rw [List.length_append, List.length_replicate, List.length_scanl]
    omega
  · rw [List.length_append, List.length_replicate, List.length_scanl]
    omega

/-- A smoothed series that is zero throughout when the list is too short to seed it. -/
theorem smoothed {short short' : Prop} [Decidable short] [Decidable short'] {N N' : ℕ}
    (hN : n ≤ N) (hN' : n ≤ N') (hshort : short → ¬ short' → n ≤ warm)
    (hshort' : short' → ¬ short → n ≤ warm)
    (h : ¬ short → ¬ short' → AgreeTo (n - (warm + 1)) xs ys ∧ (warm < n → seed = seed')) :
    AgreeTo n
      (if short then List.replicate N z else List.replicate warm z ++ xs.scanl step seed)
      (if short' then List.replicate N' z else List.replicate warm z ++ ys.scanl step seed') := by
  by_cases hs : short
  · rw [if_pos hs]
    by_cases hs' : short'
    · rw [if_pos hs']
      exact replicate hN hN'
    · rw [if_neg hs']
      exact cold hN (hshort hs hs')
  · rw [if_neg hs]
    by_cases hs' : short'
    · rw [if_pos hs']
      exact (cold hN' (hshort' hs' hs)).symm
    · rw [if_neg hs']
      exact warmUp (h hs hs').1 (h hs hs').2

end Smoothed

end AgreeTo

end ResearchLab.Foundation
