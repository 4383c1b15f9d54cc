import Mathlib.Data.List.Basic
import Mathlib.Data.List.Nodup
import Mathlib.Logic.Function.Basic
import Mathlib.Tactic.SplitIfs

/-!
# Tables with a primary key

A table keeps its keys in insertion order, without repetition, and one row for each.
No key is ever lost. `modify` is an update of one key, `modifyWhere` an update of
every row that meets a condition, and `toList` a scan in insertion order.
-/
namespace ResearchLab.Foundation

universe u v

@[ext] structure Table (κ : Type u) (ρ : Type v) where
  keys : List κ
  row : κ → Option ρ
  nodup : keys.Nodup
  mem_keys : ∀ k, k ∈ keys ↔ (row k).isSome = true

namespace Table

variable {κ : Type u} {ρ : Type v}

def empty : Table κ ρ where
  keys := []
  row := fun _ => none
  nodup := List.nodup_nil
  mem_keys := by simp

@[simp] theorem empty_row (k : κ) : (empty : Table κ ρ).row k = none := rfl

/-- The rows in insertion order. -/
def toList (t : Table κ ρ) : List ρ := t.keys.filterMap t.row

theorem mem_toList {t : Table κ ρ} {r : ρ} : r ∈ t.toList ↔ ∃ k, t.row k = some r := by
  simp only [toList, List.mem_filterMap, t.mem_keys]
  constructor
  · rintro ⟨k, _, hk⟩
    exact ⟨k, hk⟩
  · rintro ⟨k, hk⟩
    exact ⟨k, by simp [hk], hk⟩

/-- The rows with their keys. -/
def entries (t : Table κ ρ) : List (κ × ρ) := t.keys.filterMap fun k => (t.row k).map (k, ·)

theorem mem_entries {t : Table κ ρ} {k : κ} {r : ρ} : (k, r) ∈ t.entries ↔ t.row k = some r := by
  simp only [entries, List.mem_filterMap, t.mem_keys, Option.map_eq_some_iff, Prod.mk.injEq]
  constructor
  · rintro ⟨_, -, _, hr, rfl, rfl⟩
    exact hr
  · intro hr
    exact ⟨k, by simp [hr], r, hr, rfl, rfl⟩

theorem nodup_entries (t : Table κ ρ) : t.entries.Nodup := by
  refine t.nodup.filterMap ?_
  simp only [Option.mem_def, Option.map_eq_some_iff]
  rintro k k' _ ⟨r, -, rfl⟩ ⟨r', -, heq⟩
  exact (congrArg Prod.fst heq).symm

theorem entries_map_snd (t : Table κ ρ) : t.entries.map Prod.snd = t.toList := by
  simp [entries, toList, List.map_filterMap, Option.map_map, Function.comp_def]

theorem nodup_entries_map_fst (t : Table κ ρ) : (t.entries.map Prod.fst).Nodup := by
  rw [entries, List.map_filterMap]
  refine t.nodup.filterMap ?_
  simp only [Option.mem_def, Option.map_eq_some_iff]
  rintro k k' _ ⟨_, ⟨r, -, rfl⟩, rfl⟩ ⟨_, ⟨r', -, rfl⟩, heq⟩
  exact heq.symm

/-- Update every row that meets the condition. -/
def modifyWhere (t : Table κ ρ) (p : ρ → Bool) (f : ρ → ρ) : Table κ ρ where
  keys := t.keys
  row := fun k => (t.row k).map fun r => if p r then f r else r
  nodup := t.nodup
  mem_keys := by simp [t.mem_keys]

@[simp] theorem modifyWhere_row (t : Table κ ρ) (p : ρ → Bool) (f : ρ → ρ) (k : κ) :
    (t.modifyWhere p f).row k = (t.row k).map fun r => if p r then f r else r := rfl

@[simp] theorem modifyWhere_keys (t : Table κ ρ) (p : ρ → Bool) (f : ρ → ρ) :
    (t.modifyWhere p f).keys = t.keys := rfl

variable [DecidableEq κ]

/-- Update the row of one key, if it is there. -/
def modify (t : Table κ ρ) (k : κ) (f : ρ → ρ) : Table κ ρ where
  keys := t.keys
  row := fun k' => if k' = k then (t.row k).map f else t.row k'
  nodup := t.nodup
  mem_keys := by
    intro k'
    by_cases h : k' = k
    · subst h; simp [t.mem_keys]
    · simp [h, t.mem_keys]

theorem modify_row (t : Table κ ρ) (k k' : κ) (f : ρ → ρ) :
    (t.modify k f).row k' = if k' = k then (t.row k).map f else t.row k' := rfl

@[simp] theorem modify_row_self (t : Table κ ρ) (k : κ) (f : ρ → ρ) :
    (t.modify k f).row k = (t.row k).map f := by simp [modify_row]

theorem modify_row_of_ne (t : Table κ ρ) {k k' : κ} (h : k' ≠ k) (f : ρ → ρ) :
    (t.modify k f).row k' = t.row k' := by simp [modify_row, h]

theorem modify_of_none {t : Table κ ρ} {k : κ} (h : t.row k = none) (f : ρ → ρ) :
    t.modify k f = t := by
  ext1
  · rfl
  · funext k'
    by_cases hk : k' = k
    · subst hk
      simp [h]
    · exact t.modify_row_of_ne hk f

@[simp] theorem modify_keys (t : Table κ ρ) (k : κ) (f : ρ → ρ) :
    (t.modify k f).keys = t.keys := rfl

/-- Insert a row under a new key; a key that is there already keeps its row. -/
def insert (t : Table κ ρ) (k : κ) (r : ρ) : Table κ ρ :=
  if h : t.row k = none then
    { keys := t.keys ++ [k]
      row := fun k' => if k' = k then some r else t.row k'
      nodup := by
        have hk : k ∉ t.keys := by simp [t.mem_keys, h]
        exact List.nodup_append.2 ⟨t.nodup, List.nodup_singleton k, by
          rintro a ha b hb rfl
          exact hk (by simpa [List.mem_singleton.1 hb] using ha)⟩
      mem_keys := by
        intro k'
        by_cases hk : k' = k
        · simp [hk]
        · simp [hk, t.mem_keys] }
  else t

theorem insert_row {t : Table κ ρ} {k : κ} (h : t.row k = none) (r : ρ) (k' : κ) :
    (t.insert k r).row k' = if k' = k then some r else t.row k' := by
  simp [insert, h]

theorem insert_keys {t : Table κ ρ} {k : κ} (h : t.row k = none) (r : ρ) :
    (t.insert k r).keys = t.keys ++ [k] := by
  simp [insert, h]

theorem insert_row_self {t : Table κ ρ} {k : κ} (h : t.row k = none) (r : ρ) :
    (t.insert k r).row k = some r := by simp [insert_row h]

theorem insert_row_of_ne {t : Table κ ρ} {k k' : κ} (hne : k' ≠ k) (r : ρ) :
    (t.insert k r).row k' = t.row k' := by
  by_cases h : t.row k = none
  · simp [insert_row h, hne]
  · simp [insert, h]

/-- A row that is there survives an insertion. -/
theorem insert_row_some {t : Table κ ρ} {k k' : κ} {r r' : ρ} (h : t.row k' = some r') :
    (t.insert k r).row k' = some r' := by
  by_cases hk : t.row k = none
  · have hne : k' ≠ k := by rintro rfl; simp [h] at hk
    simp [insert_row hk, hne, h]
  · simp [insert, hk, h]

theorem toList_insert {t : Table κ ρ} {k : κ} (h : t.row k = none) (r : ρ) :
    (t.insert k r).toList = t.toList ++ [r] := by
  have hold : t.keys.filterMap (t.insert k r).row = t.keys.filterMap t.row := by
    refine List.filterMap_congr fun k' hk' => insert_row_of_ne ?_ r
    rintro rfl
    simp [t.mem_keys, h] at hk'
  rw [toList, insert_keys h, List.filterMap_append, hold]
  simp [toList, insert_row_self h]

/-- `UPDATE ... WHERE key = k AND p`, refused unless exactly one row changes. -/
def compareAndSet (t : Table κ ρ) (k : κ) (p : ρ → Bool) (f : ρ → ρ) :
    Option (Table κ ρ) :=
  match t.row k with
  | none => none
  | some r => if p r then some (t.modify k f) else none

theorem compareAndSet_eq_some {t t' : Table κ ρ} {k : κ} {p : ρ → Bool} {f : ρ → ρ} :
    t.compareAndSet k p f = some t' ↔
      ∃ r, t.row k = some r ∧ p r = true ∧ t' = t.modify k f := by
  unfold compareAndSet
  cases h : t.row k with
  | none => simp
  | some r =>
    by_cases hp : p r
    · simp only [hp, if_true, Option.some.injEq, exists_eq_left', true_and]
      exact eq_comm
    · simp [hp]

theorem compareAndSet_eq_none {t : Table κ ρ} {k : κ} {p : ρ → Bool} {f : ρ → ρ} :
    t.compareAndSet k p f = none ↔ ∀ r, t.row k = some r → p r = false := by
  unfold compareAndSet
  cases h : t.row k with
  | none => simp
  | some r => by_cases hp : p r <;> simp [hp]

/-- `INSERT`, refused when the key is taken. -/
def insertNew (t : Table κ ρ) (k : κ) (r : ρ) : Option (Table κ ρ) :=
  if t.row k = none then some (t.insert k r) else none

theorem insertNew_eq_some {t t' : Table κ ρ} {k : κ} {r : ρ} :
    t.insertNew k r = some t' ↔ t.row k = none ∧ t' = t.insert k r := by
  unfold insertNew
  split_ifs with h
  · simp only [Option.some.injEq, h, true_and]
    exact eq_comm
  · simp [h]

/-- `INSERT ... ON CONFLICT DO UPDATE`. -/
def upsert (t : Table κ ρ) (k : κ) (r : ρ) (f : ρ → ρ) : Table κ ρ :=
  if t.row k = none then t.insert k r else t.modify k f

/-- An upsert that replaces the whole row. -/
theorem upsert_row (t : Table κ ρ) (k k' : κ) (r : ρ) :
    (t.upsert k r fun _ => r).row k' = if k' = k then some r else t.row k' := by
  unfold upsert
  split_ifs with h hk hk
  · rw [insert_row h, if_pos hk]
  · rw [insert_row h, if_neg hk]
  · obtain ⟨old, hold⟩ := Option.ne_none_iff_exists'.1 h
    rw [hk, modify_row_self, hold, Option.map_some]
  · rw [modify_row_of_ne _ hk]

/-- Where a row of an upsert comes from. -/
theorem of_upsert_row {t : Table κ ρ} {k k' : κ} {r r' : ρ} {f : ρ → ρ}
    (h : (t.upsert k r f).row k' = some r') :
    k' = k ∧ (r' = r ∨ ∃ old, t.row k = some old ∧ r' = f old) ∨ t.row k' = some r' := by
  unfold upsert at h
  split_ifs at h with hnone
  · rw [insert_row hnone] at h
    split_ifs at h with hk
    · exact .inl ⟨hk, .inl (Option.some.inj h).symm⟩
    · exact .inr h
  · obtain ⟨old, hold⟩ := Option.ne_none_iff_exists'.1 hnone
    rcases eq_or_ne k' k with rfl | hk
    · rw [modify_row_self, hold, Option.map_some] at h
      exact .inl ⟨rfl, .inr ⟨old, hold, (Option.some.inj h).symm⟩⟩
    · rw [modify_row_of_ne _ hk] at h
      exact .inr h

/-- `INSERT OR REPLACE`: the row of the key is deleted, and the new one is the last. -/
def replace (t : Table κ ρ) (k : κ) (r : ρ) : Table κ ρ where
  keys := t.keys.filter (· ≠ k) ++ [k]
  row := fun k' => if k' = k then some r else t.row k'
  nodup := by
    refine List.nodup_append.2 ⟨t.nodup.filter _, List.nodup_singleton k, ?_⟩
    rintro a ha b hb rfl
    exact of_decide_eq_true (List.mem_filter.1 ha).2 (List.mem_singleton.1 hb)
  mem_keys := by
    intro k'
    by_cases hk : k' = k
    · simp [hk]
    · simp [hk, t.mem_keys]

theorem replace_row (t : Table κ ρ) (k k' : κ) (r : ρ) :
    (t.replace k r).row k' = if k' = k then some r else t.row k' := rfl

/-! ## Dictionaries built from a list -/

/-- `{key(r): r for r in rows}` on top of a table: what it holds is of the list or was there. -/
theorem of_row_foldl_upsert (key : ρ → κ) {l : List ρ} {t : Table κ ρ} {k : κ} {r : ρ}
    (h : (l.foldl (fun t r => t.upsert (key r) r fun _ => r) t).row k = some r) :
    (r ∈ l ∧ key r = k) ∨ t.row k = some r := by
  induction l generalizing t with
  | nil => exact .inr h
  | cons a l ih =>
    rcases ih h with ⟨hr, hk⟩ | hr
    · exact .inl ⟨List.mem_cons_of_mem _ hr, hk⟩
    · rw [upsert_row] at hr
      split_ifs at hr with hk
      · obtain rfl := Option.some.inj hr
        exact .inl ⟨List.mem_cons_self, hk.symm⟩
      · exact .inr hr

/-- `groups.setdefault(key(r), []).append(r)` for each row: what a group holds is of the list or
was there. -/
theorem mem_of_row_foldl_group (key : ρ → κ) {l : List ρ} {t : Table κ (List ρ)} {k : κ}
    {rs : List ρ}
    (h : (l.foldl (fun t r => t.upsert (key r) [r] (· ++ [r])) t).row k = some rs) {r : ρ}
    (hr : r ∈ rs) : (r ∈ l ∧ key r = k) ∨ ∃ rs', t.row k = some rs' ∧ r ∈ rs' := by
  induction l generalizing t with
  | nil => exact .inr ⟨rs, h, hr⟩
  | cons x l ih =>
    rcases ih h with ⟨hmem, hk⟩ | ⟨rs', hrow, hmem⟩
    · exact .inl ⟨List.mem_cons_of_mem _ hmem, hk⟩
    · rcases of_upsert_row hrow with ⟨rfl, hnew | ⟨old, hold, hnew⟩⟩ | hrow
      · rw [hnew, List.mem_singleton] at hmem
        exact .inl ⟨hmem ▸ List.mem_cons_self, congrArg key hmem⟩
      · rw [hnew] at hmem
        rcases List.mem_append.1 hmem with hmem | hmem
        · exact .inr ⟨old, hold, hmem⟩
        · exact .inl ⟨List.mem_singleton.1 hmem ▸ List.mem_cons_self,
            congrArg key (List.mem_singleton.1 hmem)⟩
      · exact .inr ⟨rs', hrow, hmem⟩

/-- Every key of the list is in the dictionary. -/
theorem isSome_row_foldl_upsert (key : ρ → κ) {l : List ρ} {t : Table κ ρ} {k : κ}
    (h : (∃ r ∈ l, key r = k) ∨ (t.row k).isSome) :
    ((l.foldl (fun t r => t.upsert (key r) r fun _ => r) t).row k).isSome := by
  induction l generalizing t with
  | nil => simpa using h
  | cons a l ih =>
    refine ih ?_
    simp only [upsert_row]
    rcases h with ⟨r, hr, rfl⟩ | h
    · rcases List.mem_cons.1 hr with rfl | hr
      · exact .inr (by simp)
      · exact .inl ⟨r, hr, rfl⟩
    · refine .inr ?_
      split_ifs
      · rfl
      · exact h

end Table

/-- The first of the least elements of a list under a strict order test. -/
def firstMin {ρ : Type v} (lt : ρ → ρ → Bool) : List ρ → Option ρ
  | [] => none
  | r :: rs =>
      match firstMin lt rs with
      | none => some r
      | some m => if lt m r then some m else some r

theorem firstMin_mem {ρ : Type v} {lt : ρ → ρ → Bool} {l : List ρ} {r : ρ}
    (h : firstMin lt l = some r) : r ∈ l := by
  induction l with
  | nil => simp [firstMin] at h
  | cons a l ih =>
    simp only [firstMin] at h
    split at h
    · simp_all
    · next m hm =>
      split_ifs at h
      · exact List.mem_cons_of_mem _ (ih (hm.trans h))
      · simp_all

theorem firstMin_eq_none {ρ : Type v} {lt : ρ → ρ → Bool} {l : List ρ} :
    firstMin lt l = none ↔ l = [] := by
  cases l with
  | nil => simp [firstMin]
  | cons a l =>
    simp only [firstMin, reduceCtorEq, iff_false]
    split
    · simp
    · split_ifs <;> simp

/-! ## Generated keys -/

namespace Table

variable {ρ : Type v}

/-- The next generated key: one more than the largest key used so far. -/
def nextKey (t : Table ℕ ρ) : ℕ := t.keys.foldr max 0 + 1

theorem le_foldr_max {l : List ℕ} {k : ℕ} (h : k ∈ l) : k ≤ l.foldr max 0 := by
  induction l with
  | nil => simp at h
  | cons a l ih =>
    rcases List.mem_cons.1 h with rfl | h
    · exact Nat.le_max_left _ _
    · exact Nat.le_trans (ih h) (Nat.le_max_right _ _)

theorem row_nextKey (t : Table ℕ ρ) : t.row t.nextKey = none := by
  by_contra h
  have hk : t.nextKey ∈ t.keys := (t.mem_keys _).2 (Option.isSome_iff_ne_none.2 h)
  have := le_foldr_max hk
  unfold nextKey at this
  omega

theorem lt_nextKey {t : Table ℕ ρ} {k : ℕ} {r : ρ} (h : t.row k = some r) :
    k < t.nextKey :=
  Nat.lt_succ_of_le (le_foldr_max ((t.mem_keys k).2 (by simp [h])))

end Table
end ResearchLab.Foundation
