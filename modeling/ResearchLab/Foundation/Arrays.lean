import Mathlib.Data.List.GetD
import Mathlib.Order.Lattice

/-!
# Arrays over decision indices

The array operations of a batched computation, one lane for each index. An array that is the
image of its index list stays one under every operation, and the lane of a window is the slice
of the array before its index.
-/
namespace ResearchLab.Foundation

universe u v w

variable {α : Type u} {β : Type v} {γ : Type w}

/-- `range(start, stop)`. -/
def arange (start stop : ℕ) : List ℕ := (List.range (stop - start)).map (start + ·)

theorem mem_arange {start stop i : ℕ} : i ∈ arange start stop ↔ start ≤ i ∧ i < stop := by
  simp only [arange, List.mem_map, List.mem_range]
  constructor
  · rintro ⟨k, hk, rfl⟩
    omega
  · rintro ⟨hstart, hstop⟩
    exact ⟨i - start, by omega, by omega⟩

theorem arange_eq_nil {start stop : ℕ} (h : stop ≤ start) : arange start stop = [] := by
  simp [arange, Nat.sub_eq_zero_of_le h]

theorem arange_eq_cons {start stop : ℕ} (h : start < stop) :
    arange start stop = start :: arange (start + 1) stop := by
  obtain ⟨k, hk⟩ : ∃ k, stop - start = k + 1 := ⟨stop - start - 1, by omega⟩
  have hk' : stop - (start + 1) = k := by omega
  rw [arange, arange, hk, hk', List.range_succ_eq_map, List.map_cons, List.map_map, Nat.add_zero]
  congr 1
  refine List.map_congr_left fun i _ => ?_
  simp only [Function.comp]
  omega

theorem arange_succ {start stop : ℕ} (h : start ≤ stop) :
    arange start (stop + 1) = arange start stop ++ [stop] := by
  rw [arange, arange, Nat.sub_add_comm h, List.range_succ, List.map_append]
  simp [Nat.add_sub_cancel' h]

theorem find?_arange_eq_some {start stop i : ℕ} {p : ℕ → Bool} :
    (arange start stop).find? p = some i ↔
      start ≤ i ∧ i < stop ∧ p i = true ∧ ∀ k, start ≤ k → k < i → p k = false := by
  rw [arange, List.find?_map, Option.map_eq_some_iff]
  simp only [List.find?_range_eq_some, List.mem_range, Function.comp, Bool.not_eq_true']
  constructor
  · rintro ⟨k, ⟨hp, hk, hbefore⟩, rfl⟩
    refine ⟨by omega, by omega, hp, fun j hj hlt => ?_⟩
    have hfalse := hbefore (j - start) (by omega)
    rwa [Nat.add_sub_cancel' hj] at hfalse
  · rintro ⟨hstart, hstop, hp, hbefore⟩
    refine ⟨i - start, ⟨?_, by omega, fun j hj => hbefore _ (by omega) (by omega)⟩, by omega⟩
    rwa [Nat.add_sub_cancel' hstart]

/-- `values[i:j]`. -/
def slice (values : List α) (i j : ℕ) : List α := (values.drop i).take (j - i)

theorem slice_map (f : α → β) (values : List α) (i j : ℕ) :
    slice (values.map f) i j = (slice values i j).map f := by
  simp [slice, List.map_take, List.map_drop]

theorem length_slice {values : List α} {i j : ℕ} (h : j ≤ values.length) :
    (slice values i j).length = j - i := by
  simp only [slice, List.length_take, List.length_drop]
  omega

/-- `values[indices]` for indices inside the array. -/
def gather (values : List α) (fallback : α) (indices : List ℕ) : List α :=
  indices.map fun i => values.getD i fallback

/-- The index matrix `decision[:, None] - back + arange(width)[None, :]`. -/
def windows (decision : List ℕ) (back width : ℕ) : List (List ℕ) :=
  decision.map fun d => (arange 0 width).map fun j => d - back + j

/-- `values[matrix]`. -/
def gatherRows (values : List α) (fallback : α) (matrix : List (List ℕ)) : List (List α) :=
  matrix.map (gather values fallback)

/-- An operation on two arrays of one shape. -/
def lanes (f : α → β → γ) (a : List α) (b : List β) : List γ := List.zipWith f a b

theorem lanes_map {ι : Type*} (f : α → β → γ) (g : ι → α) (h : ι → β) (l : List ι) :
    lanes f (l.map g) (l.map h) = l.map fun i => f (g i) (h i) := by
  simp [lanes, List.zipWith_map, List.zipWith_self]

/-- One lane of a window. -/
theorem gather_window {values : List α} {fallback : α} {d back width : ℕ}
    (hwidth : d - back + width ≤ values.length) :
    gather values fallback ((arange 0 width).map fun j => d - back + j) =
      slice values (d - back) (d - back + width) := by
  apply List.ext_getElem
  · rw [length_slice hwidth]
    simp [gather, arange]
  intro i hi hi'
  have hlength : i < width := by simpa [gather, arange] using hi
  simp only [gather, arange, slice, List.getElem_map, List.getElem_range, List.getElem_take,
    List.getElem_drop, Nat.zero_add]
  exact List.getD_eq_getElem _ _ (by omega)

variable [LinearOrder α]

/-- The largest element of a list that is not empty. -/
def maxOf (fallback : α) : List α → α
  | [] => fallback
  | x :: xs => xs.foldl max x

/-- The smallest element of a list that is not empty. -/
def minOf (fallback : α) : List α → α
  | [] => fallback
  | x :: xs => xs.foldl min x

theorem maxOf_mem {fallback : α} {l : List α} (h : l ≠ []) : maxOf fallback l ∈ l := by
  cases l with
  | nil => exact absurd rfl h
  | cons x xs =>
    rw [maxOf]
    clear h
    induction xs generalizing x with
    | nil => exact List.mem_cons_self
    | cons y ys ih =>
      rw [List.foldl_cons]
      rcases List.mem_cons.1 (ih (max x y)) with hmax | hmem
      · rw [hmax]
        rcases le_total x y with hxy | hyx
        · rw [max_eq_right hxy]
          exact List.mem_cons_of_mem _ List.mem_cons_self
        · rw [max_eq_left hyx]
          exact List.mem_cons_self
      · exact List.mem_cons_of_mem _ (List.mem_cons_of_mem _ hmem)

theorem le_foldl_max (a : α) (l : List α) : a ≤ l.foldl max a := by
  induction l generalizing a with
  | nil => exact le_rfl
  | cons x xs ih => exact (le_max_left a x).trans (ih (max a x))

theorem le_maxOf {fallback a : α} {l : List α} (h : a ∈ l) : a ≤ maxOf fallback l := by
  cases l with
  | nil => cases h
  | cons x xs =>
    rw [maxOf]
    induction xs generalizing x with
    | nil => exact (List.mem_singleton.1 h).le
    | cons y ys ih =>
      rw [List.foldl_cons]
      rcases List.mem_cons.1 h with rfl | h
      · exact (le_max_left _ _).trans (le_foldl_max _ ys)
      rcases List.mem_cons.1 h with rfl | h
      · exact (le_max_right _ _).trans (le_foldl_max _ ys)
      · exact ih (max x y) (List.mem_cons_of_mem _ h)

theorem minOf_mem {fallback : α} {l : List α} (h : l ≠ []) : minOf fallback l ∈ l :=
  @maxOf_mem αᵒᵈ _ fallback l h

theorem minOf_le {fallback a : α} {l : List α} (h : a ∈ l) : minOf fallback l ≤ a :=
  @le_maxOf αᵒᵈ _ fallback a l h

end ResearchLab.Foundation
