import Mathlib.Data.List.Perm.Basic

/-!
# Grouping by a key

`for item in items: grouped.setdefault(key(item), []).append(item)`, with the groups in the order
of their first items.
-/
namespace ResearchLab.Foundation

universe u v

variable {α : Type u} {κ : Type v} [DecidableEq κ]

/-- `grouped.setdefault(k, []).append(a)`. -/
def appendToGroup (k : κ) (a : α) : List (κ × List α) → List (κ × List α)
  | [] => [(k, [a])]
  | g :: gs => if g.1 = k then (k, g.2 ++ [a]) :: gs else g :: appendToGroup k a gs

def groupByKey (key : α → κ) (items : List α) : List (κ × List α) :=
  items.foldl (fun gs a => appendToGroup (key a) a gs) []

/-- The members of the groups, group by group. -/
def groupMembers (gs : List (κ × List α)) : List α := gs.flatMap Prod.snd

theorem appendToGroup_perm (k : κ) (a : α) (gs : List (κ × List α)) :
    (groupMembers (appendToGroup k a gs)).Perm (groupMembers gs ++ [a]) := by
  induction gs with
  | nil => simp [groupMembers, appendToGroup]
  | cons g gs ih =>
    rw [appendToGroup]
    split_ifs
    · simp only [groupMembers, List.flatMap_cons, List.append_assoc]
      exact List.perm_append_comm.append_left _
    · simp only [groupMembers, List.flatMap_cons, List.append_assoc] at ih ⊢
      exact ih.append_left _

theorem appendToGroup_key {key : α → κ} {gs : List (κ × List α)}
    (h : ∀ g ∈ gs, ∀ b ∈ g.2, key b = g.1) (a : α) :
    ∀ g ∈ appendToGroup (key a) a gs, ∀ b ∈ g.2, key b = g.1 := by
  induction gs with
  | nil => simp [appendToGroup]
  | cons g gs ih =>
    obtain ⟨hg, hgs⟩ := List.forall_mem_cons.1 h
    rw [appendToGroup]
    split_ifs with heq
    · refine List.forall_mem_cons.2 ⟨fun b hb => ?_, hgs⟩
      rcases List.mem_append.1 hb with hb | hb
      · exact (hg b hb).trans heq
      · rw [List.mem_singleton.1 hb]
    · exact List.forall_mem_cons.2 ⟨hg, ih hgs⟩

/-- No item is lost and none counts twice. -/
theorem groupByKey_perm (key : α → κ) (items : List α) :
    (groupMembers (groupByKey key items)).Perm items := by
  suffices h : ∀ gs : List (κ × List α),
      (groupMembers (items.foldl (fun gs a => appendToGroup (key a) a gs) gs)).Perm
        (groupMembers gs ++ items) by
    simpa [groupByKey, groupMembers] using h []
  induction items with
  | nil => simp
  | cons a items ih =>
    intro gs
    refine (ih _).trans (((appendToGroup_perm (key a) a gs).append_right items).trans ?_)
    simp

/-- The members of a group have its key. -/
theorem key_of_mem_groupByKey {key : α → κ} {items : List α} {g : κ × List α}
    (hg : g ∈ groupByKey key items) : ∀ a ∈ g.2, key a = g.1 := by
  suffices h : ∀ gs : List (κ × List α), (∀ g ∈ gs, ∀ a ∈ g.2, key a = g.1) →
      ∀ g ∈ items.foldl (fun gs a => appendToGroup (key a) a gs) gs, ∀ a ∈ g.2, key a = g.1 from
    h [] (by simp) g hg
  clear hg
  induction items with
  | nil => exact fun gs h => h
  | cons a items ih => exact fun gs h => ih _ (appendToGroup_key h a)

/-- Where each key contributes items of its own, the items of a key are its contribution. -/
theorem filter_flatMap_of_nodup {α β : Type*} [DecidableEq α] {f : α → List β} {p : β → Bool} {a : α}
    {l : List α} (hl : l.Nodup) (hp : ∀ b ∈ l, b ≠ a → (f b).filter p = []) :
    (l.flatMap f).filter p = if a ∈ l then (f a).filter p else [] := by
  induction l with
  | nil => rfl
  | cons b l ih =>
    obtain ⟨hb, hl⟩ := List.nodup_cons.1 hl
    rw [List.flatMap_cons, List.filter_append,
      ih hl fun other hother => hp other (List.mem_cons_of_mem _ hother)]
    by_cases hab : b = a
    · subst hab
      rw [if_neg hb, if_pos List.mem_cons_self, List.append_nil]
    · rw [hp b List.mem_cons_self hab, List.nil_append]
      simp only [List.mem_cons, Ne.symm hab, false_or]

end ResearchLab.Foundation
