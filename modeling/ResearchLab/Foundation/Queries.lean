import Mathlib
import ResearchLab.Foundation.Sorting
import ResearchLab.Foundation.Table

/-!
# Ordered queries over growing tables

`INSERT OR IGNORE` row after row, and `SELECT ... ORDER BY` before and after a table grew.
-/
namespace ResearchLab.Foundation

universe u v w

namespace Table

variable {κ : Type u} {ρ : Type v} {α : Type w} [DecidableEq κ]

/-- `INSERT OR IGNORE` for each item. -/
def insertAll (key : α → κ) (row : α → ρ) (t : Table κ ρ) (l : List α) : Table κ ρ :=
  l.foldl (fun t a => t.insert (key a) (row a)) t

/-- A key keeps its row, or takes that of its first item. -/
theorem insertAll_row (key : α → κ) (row : α → ρ) (t : Table κ ρ) (l : List α) (k : κ) :
    (t.insertAll key row l).row k = (t.row k).or ((l.find? fun a => key a = k).map row) := by
  induction l generalizing t with
  | nil => simp [insertAll]
  | cons a l ih =>
    rw [insertAll, List.foldl_cons, ← insertAll, ih]
    by_cases hk : key a = k
    · subst hk
      cases h : t.row (key a) with
      | none => simp [insert_row_self h]
      | some r => simp [insert_row_some h]
    · rw [insert_row_of_ne (Ne.symm hk), List.find?_cons_of_neg (by simpa using hk)]

/-- Each row of the table is made of the first item of its key. -/
def HoldsFirsts (key : α → κ) (row : α → ρ) (t : Table κ ρ) (l : List α) : Prop :=
  ∀ k r, t.row k = some r → ∃ a, l.find? (fun a => key a = k) = some a ∧ row a = r

section Firsts

variable {key : α → κ} {row : α → ρ} {t : Table κ ρ} {l : List α}

theorem HoldsFirsts.append (h : HoldsFirsts key row t l) (l' : List α) :
    HoldsFirsts key row t (l ++ l') := by
  intro k r hr
  obtain ⟨a, ha, har⟩ := h k r hr
  exact ⟨a, by rw [List.find?_append, ha]; rfl, har⟩

/-- An item may be indexed with its append when it is the first of its key. -/
theorem HoldsFirsts.insert (h : HoldsFirsts key row t l) {a : α}
    (hfirst : t.row (key a) = none → ∀ b, l.find? (fun b => key b = key a) = some b → b = a) :
    HoldsFirsts key row (t.insert (key a) (row a)) (l ++ [a]) := by
  intro k r hr
  cases hold : t.row (key a) with
  | some r' =>
    rw [Table.insert, dif_neg (by simp [hold])] at hr
    exact h.append [a] k r hr
  | none =>
    rw [insert_row hold] at hr
    by_cases hk : k = key a
    · subst hk
      rw [if_pos rfl] at hr
      refine ⟨a, ?_, Option.some.inj hr⟩
      rw [List.find?_append]
      cases hfind : l.find? fun b => key b = key a with
      | none => simp
      | some b => simp [hfirst hold b hfind]
    · rw [if_neg hk] at hr
      exact h.append [a] k r hr

/-- Inserting the items anew gives every row that the table has. -/
theorem HoldsFirsts.insertAll (h : HoldsFirsts key row t l) {k : κ} {r : ρ}
    (hr : t.row k = some r) :
    ((empty : Table κ ρ).insertAll key row l).row k = some r := by
  obtain ⟨a, ha, rfl⟩ := h k r hr
  simp [insertAll_row, ha]

end Firsts

/-- A row of a table filled by `INSERT OR IGNORE` is made of one of the items. -/
theorem of_insertAll_row {key : α → κ} {row : α → ρ} {l : List α} {k : κ} {r : ρ}
    (h : ((empty : Table κ ρ).insertAll key row l).row k = some r) :
    ∃ a ∈ l, key a = k ∧ row a = r := by
  rw [insertAll_row] at h
  simp only [empty_row, Option.none_or, Option.map_eq_some_iff] at h
  obtain ⟨a, ha, rfl⟩ := h
  exact ⟨a, List.mem_of_find?_eq_some ha, by simpa using List.find?_some ha, rfl⟩

omit [DecidableEq κ] in
/-- Rows that tell their key are listed once. -/
theorem nodup_toList_map {t : Table κ ρ} {ident : ρ → κ}
    (hident : ∀ k r, t.row k = some r → ident r = k) : (t.toList.map ident).Nodup := by
  have hkeys : t.toList.map ident = t.entries.map Prod.fst := by
    rw [← entries_map_snd, List.map_map]
    exact List.map_congr_left fun e he => hident e.1 e.2 (mem_entries.1 he)
  rw [hkeys]
  exact t.nodup_entries_map_fst

omit [DecidableEq κ] in
/-- Where a table only got more rows, an ordered query gives its old result with rows of new
keys between. -/
theorem sortOn_extension {γ : Type*} [LinearOrder γ] {t t' : Table κ ρ} {ident : ρ → κ}
    {key : ρ → γ} (hsub : ∀ k r, t.row k = some r → t'.row k = some r)
    (hident : ∀ k r, t'.row k = some r → ident r = k)
    (hkey : ∀ r r', key r = key r' → ident r = ident r') (p : ρ → Bool) :
    ∃ extra, (sortOn key (t.toList.filter p)).Sublist (sortOn key (t'.toList.filter p)) ∧
      (sortOn key (t.toList.filter p) ++ extra).Perm (sortOn key (t'.toList.filter p)) ∧
      ∀ r ∈ extra, ∃ k, t'.row k = some r ∧ t.row k = none := by
  set old : ρ → Bool := fun r => (t.row (ident r)).isSome with hold
  set new := sortOn key (t'.toList.filter p) with hnew
  have hnodup : ((t'.toList.filter p).map key).Nodup := by
    have hn := (nodup_toList_map hident).sublist ((t'.toList.filter_sublist (p := p)).map ident)
    rw [List.nodup_map_iff_inj_on (List.Nodup.of_map ident hn)]
    intro r hr r' hr' heq
    exact List.inj_on_of_nodup_map hn hr hr' (hkey r r' heq)
  have hmem : ∀ r, r ∈ new ↔ (∃ k, t'.row k = some r) ∧ p r = true := by
    intro r
    rw [hnew, mem_sortOn, List.mem_filter, mem_toList]
  -- the old rows of the new result are the old result
  have hfilter : new.filter old = sortOn key (t.toList.filter p) := by
    have hnodup' : (new.map key).Nodup := by
      rw [hnew]
      exact (((sortOn_perm key _).map key).nodup_iff).2 hnodup
    have hsorted := ((sortOn_pairwise key (t'.toList.filter p)).filter old)
    rw [← hnew] at hsorted
    rw [← sortOn_eq_self hsorted]
    apply sortOn_eq_of_perm
    · have hident' : ∀ k r, t.row k = some r → ident r = k :=
        fun k r h => hident k r (hsub k r h)
      refine (List.perm_ext_iff_of_nodup ?_ ?_).2 fun r => ?_
      · exact (List.Nodup.of_map key hnodup').filter _
      · exact (List.Nodup.of_map ident (nodup_toList_map hident')).filter _
      · simp only [List.mem_filter, hmem, mem_toList, hold]
        constructor
        · rintro ⟨⟨⟨k, hk⟩, hp⟩, hsome⟩
          obtain ⟨r', hr'⟩ := Option.isSome_iff_exists.1 hsome
          have hrow := hsub _ _ hr'
          rw [hident k r hk, hk] at hrow
          rw [Option.some.inj hrow]
          exact ⟨⟨_, hr'⟩, by rw [← Option.some.inj hrow]; exact hp⟩
        · rintro ⟨⟨k, hk⟩, hp⟩
          refine ⟨⟨⟨k, hsub k r hk⟩, hp⟩, ?_⟩
          rw [hident' k r hk, hk]
          rfl
    · exact hnodup'.sublist ((new.filter_sublist (p := old)).map key)
  refine ⟨new.filter fun r => !old r, ?_, ?_, ?_⟩
  · rw [← hfilter]
    exact List.filter_sublist
  · rw [← hfilter]
    exact List.filter_append_perm old new
  · intro r hr
    rw [List.mem_filter, hmem] at hr
    obtain ⟨⟨⟨k, hk⟩, _⟩, hne⟩ := hr
    refine ⟨k, hk, ?_⟩
    simpa [hold, hident k r hk] using hne

/-! ## `ORDER BY .. LIMIT 1` over generated keys -/

section Generated

variable {ρ : Type v} {t : Table ℕ ρ}

/-- Generated keys ascend in the order of their insertion. -/
def Ascending (t : Table ℕ ρ) : Prop := t.keys.Pairwise (· < ·)

theorem Ascending.insert (h : t.Ascending) (r : ρ) : (t.insert t.nextKey r).Ascending := by
  rw [Ascending, insert_keys t.row_nextKey, List.pairwise_append]
  refine ⟨h, List.pairwise_singleton _ _, fun k hk n hn => ?_⟩
  obtain rfl := List.mem_singleton.1 hn
  exact Nat.lt_succ_of_le (le_foldr_max hk)

theorem Ascending.modify (h : t.Ascending) (k : ℕ) (f : ρ → ρ) : (t.modify k f).Ascending := by
  rw [Ascending, modify_keys]
  exact h

/-- A scan finds rows that carry their keys in the order of the keys. -/
theorem Ascending.toList (h : t.Ascending) {key : ρ → ℕ}
    (hkey : ∀ k r, t.row k = some r → key r = k) : t.toList.Pairwise fun a b => key a < key b := by
  refine List.pairwise_filterMap.2 (h.imp fun {k k'} hlt r hr r' hr' => ?_)
  rw [hkey k r hr, hkey k' r' hr']
  exact hlt

end Generated

end Table

section FirstMin

variable {ρ : Type v} {γ : Type w} [LinearOrder γ] {lt : ρ → ρ → Bool} {f : ρ → γ} {l : List ρ}
  {r : ρ}

/-- The first of the least elements is least. -/
theorem firstMin_le (hlt : ∀ a b, lt a b = true ↔ f a < f b) (h : firstMin lt l = some r) :
    ∀ x ∈ l, f r ≤ f x := by
  induction l generalizing r with
  | nil => simp
  | cons a l ih =>
    intro x hx
    rw [firstMin] at h
    cases hm : firstMin lt l with
    | none =>
      obtain rfl := firstMin_eq_none.1 hm
      rw [hm] at h
      obtain rfl := Option.some.inj h
      obtain rfl := List.mem_singleton.1 hx
      exact le_rfl
    | some m =>
      simp only [hm] at h
      have hle := ih hm
      split_ifs at h with hless
      · obtain rfl := Option.some.inj h
        rcases List.mem_cons.1 hx with rfl | hx
        · exact ((hlt m x).1 hless).le
        · exact hle x hx
      · obtain rfl := Option.some.inj h
        rcases List.mem_cons.1 hx with rfl | hx
        · exact le_rfl
        · exact (not_lt.1 fun hlt' => hless ((hlt m a).2 hlt')).trans (hle x hx)

/-- Of equal elements it is the first in any order that the list has. -/
theorem firstMin_first (hlt : ∀ a b, lt a b = true ↔ f a < f b) {R : ρ → ρ → Prop}
    (hl : l.Pairwise R) (h : firstMin lt l = some r) : ∀ x ∈ l, f x = f r → x = r ∨ R r x := by
  induction l generalizing r with
  | nil => simp
  | cons a l ih =>
    intro x hx hsame
    rw [firstMin] at h
    cases hm : firstMin lt l with
    | none =>
      obtain rfl := firstMin_eq_none.1 hm
      rw [hm] at h
      obtain rfl := Option.some.inj h
      exact .inl (List.mem_singleton.1 hx)
    | some m =>
      simp only [hm] at h
      split_ifs at h with hless
      · obtain rfl := Option.some.inj h
        rcases List.mem_cons.1 hx with rfl | hx
        · exact absurd hsame ((hlt m x).1 hless).ne'
        · exact ih (List.pairwise_cons.1 hl).2 hm x hx hsame
      · obtain rfl := Option.some.inj h
        rcases List.mem_cons.1 hx with rfl | hx
        · exact .inl rfl
        · exact .inr ((List.pairwise_cons.1 hl).1 x hx)

end FirstMin

end ResearchLab.Foundation
