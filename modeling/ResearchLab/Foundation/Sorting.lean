import Mathlib.Data.List.Sort
import Mathlib.Data.Prod.Lex
import Mathlib.Data.String.Basic

/-!
# Stable sorting by a key

`sorted(items, key=...)`.
-/
namespace ResearchLab.Foundation

universe u v

variable {α : Type u} {κ : Type v} [LinearOrder κ]

def sortOn (key : α → κ) (l : List α) : List α := l.insertionSort fun a b => key a ≤ key b

section
variable (key : α → κ)

instance isTrans_keyLe : IsTrans α fun a b => key a ≤ key b := ⟨fun _ _ _ => le_trans⟩

instance total_keyLe : Std.Total fun a b : α => key a ≤ key b :=
  ⟨fun a b => le_total (key a) (key b)⟩

theorem sortOn_perm (l : List α) : (sortOn key l).Perm l := List.perm_insertionSort _ l

theorem sortOn_pairwise (l : List α) : (sortOn key l).Pairwise fun a b => key a ≤ key b :=
  List.pairwise_insertionSort _ l

variable {key}

/-- A sorted list stays as it is. -/
theorem sortOn_eq_self {l : List α} (h : l.Pairwise fun a b => key a ≤ key b) : sortOn key l = l :=
  h.insertionSort_eq

/-- Where no two items share a key, the order before the sort does not count. -/
theorem sortOn_eq_of_perm {l l' : List α} (h : l.Perm l') (hkeys : (l.map key).Nodup) :
    sortOn key l = sortOn key l' := by
  have hperm : (sortOn key l).Perm (sortOn key l') :=
    (sortOn_perm key l).trans (h.trans (sortOn_perm key l').symm)
  refine hperm.eq_of_pairwise (fun a b ha hb hab hba => ?_) (sortOn_pairwise key l)
    (sortOn_pairwise key l')
  have ha : a ∈ l := (sortOn_perm key l).mem_iff.1 ha
  have hb : b ∈ l := h.mem_iff.2 ((sortOn_perm key l').mem_iff.1 hb)
  exact List.inj_on_of_nodup_map hkeys ha hb (le_antisymm hab hba)

end

/-- Lists without repetition that have the same members are sorted into the same list. -/
theorem sortOn_id_congr {l l' : List κ} (hl : l.Nodup) (hl' : l'.Nodup)
    (h : ∀ a, a ∈ l ↔ a ∈ l') : sortOn id l = sortOn id l' :=
  sortOn_eq_of_perm ((List.perm_ext_iff_of_nodup hl hl').2 h) (by simpa using hl)

theorem mem_sortOn {key : α → κ} {l : List α} {a : α} : a ∈ sortOn key l ↔ a ∈ l :=
  (sortOn_perm key l).mem_iff

/-- Sorting what a map yields. -/
theorem sortOn_map {β : Type*} {key : β → κ} {f : α → β} (l : List α) :
    sortOn key (l.map f) = (sortOn (fun a => key (f a)) l).map f :=
  (List.map_insertionSort _ _ f l fun _ _ _ _ => Iff.rfl).symm

/-- The keys of a sorted list are sorted. -/
theorem map_sortOn {key : α → κ} (l : List α) : (sortOn key l).map key = sortOn id (l.map key) :=
  (sortOn_map l : sortOn id (l.map key) = (sortOn key l).map key).symm

/-- Without repetition the order is strict. -/
theorem sortOn_id_pairwise_lt {l : List κ} (hl : l.Nodup) :
    (sortOn id l).Pairwise fun a b => a < b :=
  ((sortOn_pairwise id l).and ((sortOn_perm id l).nodup_iff.2 hl)).imp
    fun h => lt_of_le_of_ne h.1 h.2

/-- Where no two items share a key, an item is found by its key. -/
theorem find?_key_eq_some {key : α → κ} {l : List α} (hkeys : (l.map key).Nodup) {a : α} {k : κ} :
    l.find? (fun b => key b = k) = some a ↔ a ∈ l ∧ key a = k := by
  constructor
  · intro h
    exact ⟨List.mem_of_find?_eq_some h, by simpa using List.find?_some h⟩
  · rintro ⟨ha, rfl⟩
    cases hfind : l.find? fun b => key b = key a with
    | none => exact absurd (List.find?_eq_none.1 hfind a ha) (by simp)
    | some b =>
      have hb := List.mem_of_find?_eq_some hfind
      have hkey : key b = key a := by simpa using List.find?_some hfind
      rw [List.inj_on_of_nodup_map hkeys hb ha hkey]

/-! ## Ascending lists -/

/-- A list that ascends strictly in a key is given by its members. -/
theorem eq_of_ascending (key : α → κ) {l l' : List α} (h : l.Pairwise fun a b => key a < key b)
    (h' : l'.Pairwise fun a b => key a < key b) (hmem : ∀ a, a ∈ l ↔ a ∈ l') : l = l' := by
  have hnodup : ∀ {l : List α}, l.Pairwise (fun a b => key a < key b) → l.Nodup := by
    refine fun h => h.imp ?_
    rintro a b hlt rfl
    exact lt_irrefl _ hlt
  refine ((List.perm_ext_iff_of_nodup (hnodup h) (hnodup h')).2 hmem).eq_of_pairwise
    (fun a b _ _ hab hba => ?_) h h'
  exact absurd hab (lt_asymm hba)

/-- In a list that descends strictly, the first `n` items are those with fewer than `n` before them. -/
theorem mem_take_of_descending {key : α → κ} {l : List α}
    (h : l.Pairwise fun a b => key b < key a) {n : ℕ} {a : α} :
    a ∈ l.take n ↔ a ∈ l ∧ l.countP (fun b => key a < key b) < n := by
  induction l generalizing n with
  | nil => simp
  | cons b l ih =>
    obtain ⟨hb, hl⟩ := List.pairwise_cons.1 h
    cases n with
    | zero => simp
    | succ n =>
      rw [List.take_succ_cons, List.mem_cons, List.mem_cons, List.countP_cons, ih hl]
      constructor
      · rintro (rfl | ⟨ha, hcount⟩)
        · have hzero : l.countP (fun b => key a < key b) = 0 := by
            refine List.countP_eq_zero.2 fun c hc => ?_
            simpa using (hb c hc).le
          refine ⟨Or.inl rfl, ?_⟩
          simp [hzero]
        · refine ⟨Or.inr ha, ?_⟩
          simp only [hb a ha, decide_true, if_true]
          omega
      · rintro ⟨rfl | ha, hcount⟩
        · exact Or.inl rfl
        · refine Or.inr ⟨ha, ?_⟩
          simp only [hb a ha, decide_true, if_true] at hcount
          omega

/-- An ascending list falls into what lies up to a key and what lies behind it. -/
theorem filter_append_filter {key : α → κ} {l : List α} (h : l.Pairwise fun a b => key a < key b)
    (k : κ) : (l.filter fun a => key a ≤ k) ++ (l.filter fun a => k < key a) = l := by
  refine eq_of_ascending key ?_ h fun a => ?_
  · refine List.pairwise_append.2 ⟨h.filter _, h.filter _, fun a ha b hb => ?_⟩
    have ha := of_decide_eq_true (List.mem_filter.1 ha).2
    have hb := of_decide_eq_true (List.mem_filter.1 hb).2
    exact lt_of_le_of_lt ha hb
  · simp only [List.mem_append, List.mem_filter, decide_eq_true_eq]
    rcases le_or_gt (key a) k with hle | hlt
    · simp [hle]
    · simp [hlt]

/-- The items up to a member are those whose key is not behind it. -/
theorem take_eq_filter {key : α → κ} {l : List α} (h : l.Pairwise fun a b => key a < key b)
    {k : ℕ} {a : α} (ha : l[k]? = some a) :
    l.take (k + 1) = l.filter fun b => key b ≤ key a := by
  have hk : k < l.length := (List.getElem?_eq_some_iff.1 ha).1
  have hget : l[k] = a := (List.getElem?_eq_some_iff.1 ha).2
  refine eq_of_ascending key (h.sublist (List.take_sublist _ _)) (h.filter _) fun b => ?_
  simp only [List.mem_filter, decide_eq_true_eq]
  rw [List.pairwise_iff_getElem] at h
  constructor
  · intro hb
    obtain ⟨i, hi, rfl⟩ := List.mem_iff_getElem.1 hb
    rw [List.length_take] at hi
    rw [List.getElem_take, ← hget]
    refine ⟨List.getElem_mem _, ?_⟩
    rcases (show i ≤ k by omega).lt_or_eq with hlt | rfl
    · exact (h i k _ hk hlt).le
    · exact le_rfl
  · rintro ⟨hb, hle⟩
    obtain ⟨i, hi, rfl⟩ := List.mem_iff_getElem.1 hb
    have hik : i ≤ k := by
      by_contra hlt
      exact absurd (h k i hk hi (by omega)) (not_lt.2 (hget ▸ hle))
    exact List.mem_take_iff_getElem.2 ⟨i, by omega, rfl⟩

namespace IntOrder

-- where the conditionally complete order of the integers is in scope, it is found first, and it
-- does not compute
scoped instance (priority := high) linearOrder : LinearOrder ℤ := Int.instLinearOrder

scoped instance (priority := high) preorder : Preorder ℤ := Int.instLinearOrder.toPreorder

end IntOrder
end ResearchLab.Foundation
