import Mathlib
import ResearchLab.Foundation.Rounding
import ResearchLab.Foundation.Table

/-!
# Aggregates under keys

Each item is added to the aggregates of its keys. The aggregate of a key is what its items add up
to, and where an item has at most one key, sums over the keys are sums over the items.
-/
namespace ResearchLab.Foundation

universe u v w

section Aggregate

variable {κ : Type u} {ρ : Type v} {α : Type w} [DecidableEq κ]

/-- `for key in keys: add(table.setdefault(key, start()), item)`. -/
def addUnder (add : α → ρ → α) (start : α) (keys : List κ) (t : Table κ α) (r : ρ) : Table κ α :=
  keys.foldl (fun t k => t.upsert k (add start r) fun a => add a r) t

def aggregate (keysOf : ρ → List κ) (add : α → ρ → α) (start : α) (items : List ρ) : Table κ α :=
  items.foldl (fun t r => addUnder add start (keysOf r) t r) Table.empty

variable {keysOf : ρ → List κ} {add : α → ρ → α} {start : α}

theorem upsert_row_add (t : Table κ α) (k k' : κ) (r : ρ) :
    (t.upsert k (add start r) fun a => add a r).row k' =
      if k' = k then some (add ((t.row k).getD start) r) else t.row k' := by
  unfold Table.upsert
  split_ifs with h hk hk
  · rw [Table.insert_row h, if_pos hk, h, Option.getD_none]
  · rw [Table.insert_row h, if_neg hk]
  · obtain ⟨old, hold⟩ := Option.ne_none_iff_exists'.1 h
    rw [hk, Table.modify_row_self, hold, Option.map_some, Option.getD_some]
  · rw [Table.modify_row_of_ne _ hk]

theorem addUnder_row {keys : List κ} (hkeys : keys.Nodup) (t : Table κ α) (r : ρ) (k : κ) :
    (addUnder add start keys t r).row k =
      if k ∈ keys then some (add ((t.row k).getD start) r) else t.row k := by
  induction keys generalizing t with
  | nil => simp [addUnder]
  | cons k' keys ih =>
    obtain ⟨hnew, hkeys⟩ := List.nodup_cons.1 hkeys
    have hrest := ih hkeys (t.upsert k' (add start r) fun a => add a r)
    rw [upsert_row_add] at hrest
    rw [addUnder, List.foldl_cons]
    refine hrest.trans ?_
    by_cases hk : k = k'
    · subst hk
      simp [hnew]
    · simp [hk]

theorem foldl_addUnder_row (hkeys : ∀ r, (keysOf r).Nodup) (items : List ρ) (t : Table κ α) (k : κ) :
    (items.foldl (fun t r => addUnder add start (keysOf r) t r) t).row k =
      (items.filter fun r => k ∈ keysOf r).foldl
        (fun o r => some (add (o.getD start) r)) (t.row k) := by
  induction items generalizing t with
  | nil => rfl
  | cons r items ih =>
    rw [List.foldl_cons, ih, addUnder_row (hkeys r)]
    by_cases hk : k ∈ keysOf r
    · simp [hk]
    · simp [hk]

theorem foldl_some_add (items : List ρ) (a : α) :
    items.foldl (fun o r => some (add (o.getD start) r)) (some a) = some (items.foldl add a) := by
  induction items generalizing a with
  | nil => rfl
  | cons r items ih => exact ih (add a r)

/-- A key without items has no aggregate. -/
theorem aggregate_row_none (hkeys : ∀ r, (keysOf r).Nodup) {items : List ρ} {k : κ}
    (h : ∀ r ∈ items, k ∉ keysOf r) : (aggregate keysOf add start items).row k = none := by
  have hnone : (items.filter fun r => k ∈ keysOf r) = [] := by
    simpa [List.filter_eq_nil_iff] using h
  rw [aggregate, foldl_addUnder_row hkeys, hnone]
  rfl

theorem aggregate_row_some (hkeys : ∀ r, (keysOf r).Nodup) {items : List ρ} {k : κ}
    (h : ∃ r ∈ items, k ∈ keysOf r) : (aggregate keysOf add start items).row k =
      some ((items.filter fun r => k ∈ keysOf r).foldl add start) := by
  rw [aggregate, foldl_addUnder_row hkeys, Table.empty_row]
  cases hmine : items.filter fun r => k ∈ keysOf r with
  | nil =>
    obtain ⟨r, hr, hk⟩ := h
    have hmem : r ∈ items.filter fun r => k ∈ keysOf r := by simp [hr, hk]
    simp [hmine] at hmem
  | cons r mine => exact foldl_some_add mine (add start r)

theorem mem_aggregate_keys (hkeys : ∀ r, (keysOf r).Nodup) {items : List ρ} {k : κ} :
    k ∈ (aggregate keysOf add start items).keys ↔ ∃ r ∈ items, k ∈ keysOf r := by
  rw [Table.mem_keys]
  by_cases h : ∃ r ∈ items, k ∈ keysOf r
  · simp [aggregate_row_some hkeys h, h]
  · have hnone : ∀ r ∈ items, k ∉ keysOf r := fun r hr hk => h ⟨r, hr, hk⟩
    simp [aggregate_row_none hkeys hnone, h]

end Aggregate

/-! ## Sums -/

section Sums

variable {ρ : Type u} {ι : Type v} {M : Type w} [AddCommMonoid M]

/-- The sum of some of the items. -/
def sumWhere (p : ρ → Bool) (f : ρ → M) (items : List ρ) : M := ((items.filter p).map f).sum

theorem sumWhere_cons (p : ρ → Bool) (f : ρ → M) (r : ρ) (items : List ρ) :
    sumWhere p f (r :: items) = (if p r then f r else 0) + sumWhere p f items := by
  by_cases h : p r <;> simp [sumWhere, h]

theorem sum_map_indicator (q : ι → Bool) (m : M) (is : List ι) :
    (is.map fun i => if q i then m else 0).sum = is.countP q • m := by
  induction is with
  | nil => simp
  | cons i is ih =>
    by_cases h : q i
    · simp [h, ih, add_smul, add_comm]
    · simp [h, ih]

theorem sumWhere_const_one (p : ρ → Bool) (items : List ρ) :
    sumWhere p (fun _ => 1) items = items.countP p := by
  simp [sumWhere, List.countP_eq_length_filter]

/-- What is left out adds nothing. -/
theorem sumWhere_of_zero {p : ρ → Bool} {f : ρ → M} {items : List ρ}
    (h : ∀ r ∈ items, p r = false → f r = 0) : sumWhere p f items = (items.map f).sum := by
  induction items with
  | nil => rfl
  | cons r items ih =>
    rw [sumWhere_cons, List.map_cons, List.sum_cons,
      ih fun r' hr' => h r' (List.mem_cons_of_mem _ hr')]
    cases hp : p r with
    | true => rw [if_pos rfl]
    | false => rw [h r List.mem_cons_self hp, if_neg (by simp)]

/-- Sums of sums, item by item: each item as often as it is selected. -/
theorem sum_sumWhere (selects : ι → ρ → Bool) (f : ρ → M) (is : List ι) (items : List ρ) :
    (is.map fun i => sumWhere (selects i) f items).sum =
      (items.map fun r => is.countP (fun i => selects i r) • f r).sum := by
  induction items with
  | nil => simp [sumWhere]
  | cons r items ih =>
    simp only [sumWhere_cons, List.map_cons, List.sum_cons]
    rw [List.sum_map_add, sum_map_indicator fun i => selects i r, ih]

/-- Where no item is selected twice, the sum is one over the selected items. -/
theorem sum_sumWhere_of_le_one {selects : ι → ρ → Bool} {is : List ι} {items : List ρ}
    (h : ∀ r ∈ items, is.countP (fun i => selects i r) ≤ 1) (f : ρ → M) :
    (is.map fun i => sumWhere (selects i) f items).sum =
      sumWhere (fun r => is.any fun i => selects i r) f items := by
  rw [sum_sumWhere]
  induction items with
  | nil => rfl
  | cons r items ih =>
    rw [List.map_cons, List.sum_cons, sumWhere_cons,
      ih fun r' hr' => h r' (List.mem_cons_of_mem _ hr')]
    congr 1
    have hle := h r List.mem_cons_self
    by_cases hany : is.any fun i => selects i r
    · rw [if_pos hany]
      obtain ⟨i, hi, hsel⟩ := List.any_eq_true.1 hany
      have hpos : 0 < is.countP fun i => selects i r := List.countP_pos_iff.2 ⟨i, hi, hsel⟩
      rw [show is.countP (fun i => selects i r) = 1 by omega, one_smul]
    · rw [if_neg hany]
      have hzero : is.countP (fun i => selects i r) = 0 := by
        rw [List.countP_eq_zero]
        intro i hi hsel
        exact hany (List.any_eq_true.2 ⟨i, hi, hsel⟩)
      rw [hzero, zero_smul]

/-- An item with at most one key is in the group of one key. -/
theorem sum_groups {κ : Type v} [DecidableEq κ] {key : ρ → Option κ} {keys : List κ}
    (hkeys : keys.Nodup) (f : ρ → M) (items : List ρ) :
    (keys.map fun k => sumWhere (fun r => key r = some k) f items).sum =
      sumWhere (fun r => keys.any fun k => key r = some k) f items := by
  refine sum_sumWhere_of_le_one (fun r _ => ?_) f
  cases hkey : key r with
  | none => simp
  | some k =>
    have hcount : keys.countP (fun k' => decide (some k = some k')) = keys.count k := by
      rw [List.count]
      refine List.countP_congr fun k' _ => ?_
      rw [decide_eq_true_iff, Option.some.injEq, beq_iff_eq]
      exact eq_comm
    rw [hcount]
    exact List.nodup_iff_count_le_one.1 hkeys k

end Sums

/-! ## Sums that are rounded at every step -/

theorem abs_foldl_roundTo_sub_le (digits : ℕ) (xs : List ℚ) (a : ℚ) :
    |xs.foldl (fun a x => roundTo digits (a + x)) a - (a + xs.sum)| ≤
      xs.length * (1 / 2 / 10 ^ digits) := by
  induction xs generalizing a with
  | nil => simp
  | cons x xs ih =>
    have hstep := abs_roundTo_sub_le digits (a + x)
    have hrest := ih (roundTo digits (a + x))
    rw [List.foldl_cons, List.sum_cons, List.length_cons]
    push_cast
    rw [abs_le] at hstep hrest ⊢
    constructor <;> linarith [hstep.1, hstep.2, hrest.1, hrest.2]

theorem roundTo_foldl {digits : ℕ} {a : ℚ} (ha : roundTo digits a = a) (xs : List ℚ) :
    roundTo digits (xs.foldl (fun a x => roundTo digits (a + x)) a) =
      xs.foldl (fun a x => roundTo digits (a + x)) a := by
  induction xs generalizing a with
  | nil => exact ha
  | cons x xs ih => exact ih (roundTo_roundTo digits (a + x))

/-- Sums of numbers that are near. -/
theorem abs_sum_sub_sum_le {ι : Type u} (f g e : ι → ℚ) (is : List ι)
    (h : ∀ i ∈ is, |f i - g i| ≤ e i) : |(is.map f).sum - (is.map g).sum| ≤ (is.map e).sum := by
  induction is with
  | nil => simp
  | cons i is ih =>
    have hi := h i List.mem_cons_self
    have hrest := ih fun j hj => h j (List.mem_cons_of_mem _ hj)
    simp only [List.map_cons, List.sum_cons]
    rw [abs_le] at hi hrest ⊢
    constructor <;> linarith [hi.1, hi.2, hrest.1, hrest.2]

end ResearchLab.Foundation
