import Mathlib.Data.Set.Card
import Mathlib.Order.Bounds.Basic
import Mathlib.Tactic.Linarith

/-!
# Ascending lists as sets

The ends, the length and the neighbours of a strictly ascending list, in terms of its members.
-/
namespace ResearchLab.Foundation

universe u

variable {α : Type u} [LinearOrder α] {l : List α}

theorem isLeast_of_head? (h : l.Pairwise (· < ·)) {a : α} (ha : l.head? = some a) :
    IsLeast {x | x ∈ l} a := by
  cases l with
  | nil => simp at ha
  | cons b l =>
    obtain rfl := Option.some.inj ha
    refine ⟨List.mem_cons_self, fun x hx => ?_⟩
    rcases List.mem_cons.1 hx with rfl | hx
    · exact le_rfl
    · exact (List.rel_of_pairwise_cons h hx).le

theorem isGreatest_of_getLast? (h : l.Pairwise (· < ·)) {a : α} (ha : l.getLast? = some a) :
    IsGreatest {x | x ∈ l} a := by
  obtain ⟨front, rfl⟩ := List.getLast?_eq_some_iff.1 ha
  refine ⟨by simp, fun x hx => ?_⟩
  rcases List.mem_append.1 hx with hx | hx
  · exact ((List.pairwise_append.1 h).2.2 x hx a (by simp)).le
  · exact (List.mem_singleton.1 hx).le

theorem ncard_eq_length (h : l.Pairwise (· < ·)) : {x | x ∈ l}.ncard = l.length := by
  have hset : {x | x ∈ l} = (l.toFinset : Set α) := by
    ext x
    simp
  rw [hset, Set.ncard_coe_finset, List.toFinset_card_of_nodup (h.imp ne_of_lt)]

/-- The immediate predecessor of a member. -/
def Precedes (l : List α) (p x : α) : Prop :=
  p ∈ l ∧ x ∈ l ∧ p < x ∧ ∀ q ∈ l, q < x → q ≤ p

/-- A list paired with its tail pairs every member with its immediate predecessor. -/
theorem mem_zip_tail (h : l.Pairwise (· < ·)) {p x : α} :
    (p, x) ∈ l.zip l.tail ↔ Precedes l p x := by
  induction l with
  | nil => simp [Precedes]
  | cons a l ih =>
    cases l with
    | nil =>
      simp only [List.tail_cons, List.zip_nil_right, List.not_mem_nil, false_iff]
      rintro ⟨hp, hx, hlt, -⟩
      rw [List.mem_singleton.1 hp, List.mem_singleton.1 hx] at hlt
      exact lt_irrefl _ hlt
    | cons b l =>
      have hab : a < b := List.rel_of_pairwise_cons h List.mem_cons_self
      have hleast : ∀ y ∈ b :: l, b ≤ y :=
        fun y hy => (isLeast_of_head? h.of_cons rfl).2 hy
      have habove : ∀ y ∈ b :: l, a < y := fun y hy => List.rel_of_pairwise_cons h hy
      have ih := ih h.of_cons
      rw [List.tail_cons] at ih ⊢
      rw [List.zip_cons_cons, List.mem_cons, Prod.mk.injEq, ih]
      constructor
      · rintro (⟨rfl, rfl⟩ | ⟨hp, hx, hlt, hmax⟩)
        · refine ⟨by simp, by simp, hab, fun q hq hlt => ?_⟩
          rcases List.mem_cons.1 hq with rfl | hq
          · exact le_rfl
          · exact absurd hlt (not_lt.2 (hleast q hq))
        · refine ⟨List.mem_cons_of_mem _ hp, List.mem_cons_of_mem _ hx, hlt, fun q hq hqx => ?_⟩
          rcases List.mem_cons.1 hq with rfl | hq
          · exact (habove p hp).le
          · exact hmax q hq hqx
      · rintro ⟨hp, hx, hlt, hmax⟩
        have hx' : x ∈ b :: l := by
          rcases List.mem_cons.1 hx with rfl | hx
          · rcases List.mem_cons.1 hp with rfl | hp
            · exact absurd hlt (lt_irrefl _)
            · exact absurd (hlt.trans (habove p hp)) (lt_irrefl _)
          · exact hx
        rcases List.mem_cons.1 hp with rfl | hp
        · -- only the first two members have nothing between them
          have hbx : b ≤ x := hleast x hx'
          refine .inl ⟨rfl, hbx.eq_or_lt.elim Eq.symm fun hlt' => ?_⟩
          exact absurd (hmax b (by simp) hlt') (not_le.2 hab)
        · exact .inr ⟨hp, hx', hlt, fun q hq => hmax q (List.mem_cons_of_mem _ hq)⟩

/-- The members that lie more than a gap behind their predecessor, counted over neighbours. -/
theorem ncard_gaps {l : List ℤ} (h : l.Pairwise (· < ·)) (gap : ℤ) :
    {x | ∃ p, Precedes l p x ∧ gap < x - p}.ncard =
      ((l.zip l.tail).filter fun p => gap < p.2 - p.1).length := by
  have hnodup : (((l.zip l.tail).filter fun p => gap < p.2 - p.1).map Prod.snd).Nodup := by
    have hsub : (((l.zip l.tail).filter fun p => gap < p.2 - p.1).map Prod.snd).Sublist l :=
      ((List.filter_sublist.map _).trans (by
        rw [List.map_snd_zip (by simp)])).trans (List.tail_sublist l)
    exact hsub.nodup (h.imp ne_of_lt)
  have hset : {x | ∃ p, Precedes l p x ∧ gap < x - p} =
      ((((l.zip l.tail).filter fun p => gap < p.2 - p.1).map Prod.snd).toFinset : Set ℤ) := by
    ext x
    simp only [List.coe_toFinset, List.mem_map, List.mem_filter, decide_eq_true_eq, Prod.exists,
      exists_eq_right, mem_zip_tail h]
  rw [hset, Set.ncard_coe_finset, List.toFinset_card_of_nodup hnodup, List.length_map]

end ResearchLab.Foundation
