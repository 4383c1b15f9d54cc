import Mathlib
import ResearchLab.Foundation.Sorting

/-!
# The last item of each key

`[by_key[k] for k in sorted(by_key)]` where the items were put into `by_key` one after another.
-/
namespace ResearchLab.Foundation

universe u v

variable {α : Type u} {κ : Type v} [LinearOrder κ] {key : α → κ} {l l' : List α} {a : α}

def lastByKey (key : α → κ) (l : List α) : List α :=
  (sortOn id (l.map key).dedup).filterMap fun k => (l.filter fun a => key a = k).getLast?

theorem key_of_getLast? {k : κ} (h : (l.filter fun b => key b = k).getLast? = some a) :
    a ∈ l ∧ key a = k := by
  have := List.mem_filter.1 (List.mem_of_getLast? h)
  exact ⟨this.1, of_decide_eq_true this.2⟩

theorem mem_lastByKey :
    a ∈ lastByKey key l ↔ (l.filter fun b => key b = key a).getLast? = some a := by
  simp only [lastByKey, List.mem_filterMap, mem_sortOn, List.mem_dedup, List.mem_map]
  constructor
  · rintro ⟨k, -, hk⟩
    obtain rfl := (key_of_getLast? hk).2
    exact hk
  · intro h
    exact ⟨key a, ⟨a, (key_of_getLast? h).1, rfl⟩, h⟩

theorem mem_of_mem_lastByKey (h : a ∈ lastByKey key l) : a ∈ l :=
  (key_of_getLast? (mem_lastByKey.1 h)).1

theorem map_key_lastByKey (key : α → κ) (l : List α) :
    (lastByKey key l).map key = sortOn id (l.map key).dedup := by
  rw [lastByKey, List.map_filterMap]
  have hkeys : ∀ k ∈ sortOn id (l.map key).dedup,
      ((l.filter fun a => key a = k).getLast?).map key = some k := by
    intro k hk
    rw [mem_sortOn, List.mem_dedup, List.mem_map] at hk
    obtain ⟨b, hb, rfl⟩ := hk
    have hne : (l.filter fun a => key a = key b) ≠ [] :=
      List.ne_nil_of_mem (List.mem_filter.2 ⟨hb, by simp⟩)
    obtain ⟨c, hc⟩ : ∃ c, (l.filter fun a => key a = key b).getLast? = some c :=
      ⟨_, List.getLast?_eq_some_getLast hne⟩
    rw [hc, Option.map_some, (key_of_getLast? hc).2]
  rw [List.filterMap_congr hkeys, List.filterMap_some]

theorem lastByKey_pairwise (key : α → κ) (l : List α) :
    (lastByKey key l).Pairwise fun a b => key a < key b := by
  rw [← List.pairwise_map, map_key_lastByKey]
  exact sortOn_id_pairwise_lt (List.nodup_dedup _)

/-- Where the keys are in strict order already, every item stays. -/
theorem lastByKey_eq_self (h : l.Pairwise fun a b => key a < key b) : lastByKey key l = l := by
  refine eq_of_ascending key (lastByKey_pairwise key l) h fun a => ?_
  refine ⟨mem_of_mem_lastByKey, fun ha => mem_lastByKey.2 ?_⟩
  have hinj : ∀ b ∈ l, key b = key a → b = a := by
    intro b hb hkey
    have hnodup : (l.map key).Nodup := by
      rw [List.Nodup, List.pairwise_map]
      exact h.imp fun hlt => hlt.ne
    exact List.inj_on_of_nodup_map hnodup hb ha hkey
  have hne : (l.filter fun b => key b = key a) ≠ [] :=
    List.ne_nil_of_mem (List.mem_filter.2 ⟨ha, by simp⟩)
  obtain ⟨c, hc⟩ : ∃ c, (l.filter fun b => key b = key a).getLast? = some c :=
    ⟨_, List.getLast?_eq_some_getLast hne⟩
  obtain ⟨hmem, hkey⟩ := key_of_getLast? hc
  rw [hc, hinj c hmem hkey]

/-- Items with greater keys come behind. -/
theorem lastByKey_append (h : ∀ a ∈ l, ∀ b ∈ l', key a < key b) :
    lastByKey key (l ++ l') = lastByKey key l ++ lastByKey key l' := by
  refine eq_of_ascending key (lastByKey_pairwise key _) ?_ fun a => ?_
  · refine List.pairwise_append.2 ⟨lastByKey_pairwise key l, lastByKey_pairwise key l', ?_⟩
    exact fun a ha b hb => h a (mem_of_mem_lastByKey ha) b (mem_of_mem_lastByKey hb)
  · rw [List.mem_append, mem_lastByKey, mem_lastByKey, mem_lastByKey, List.filter_append]
    have hleft : ∀ b ∈ l', key b = key a → l.filter (fun b => key b = key a) = [] := by
      intro b hb hkey
      refine List.filter_eq_nil_iff.2 fun c hc => ?_
      have := h c hc b hb
      simp only [decide_eq_true_eq]
      exact fun heq => this.ne (heq.trans hkey.symm)
    rcases hright : l'.filter (fun b => key b = key a) with _ | ⟨b, rest⟩
    · simp
    · have hb : b ∈ l'.filter fun b => key b = key a := by rw [hright]; exact List.mem_cons_self
      obtain ⟨hb, hkey⟩ := List.mem_filter.1 hb
      rw [hleft b hb (of_decide_eq_true hkey)]
      simp

/-- Only the order of the items of one key counts. -/
theorem lastByKey_eq_of_filter
    (h : ∀ k, (l.filter fun a => key a = k) = l'.filter fun a => key a = k) :
    lastByKey key l = lastByKey key l' := by
  refine eq_of_ascending key (lastByKey_pairwise key l) (lastByKey_pairwise key l') fun a => ?_
  rw [mem_lastByKey, mem_lastByKey, h]

/-- Items whose keys the predicate separates from the greater ones come first. -/
theorem lastByKey_eq_append_of_lt (p : α → Bool)
    (h : ∀ a ∈ l, ∀ b ∈ l, p a = true → p b = false → key a < key b) :
    lastByKey key l = lastByKey key (l.filter p) ++ lastByKey key (l.filter fun a => !p a) := by
  rw [← lastByKey_append]
  · refine lastByKey_eq_of_filter fun k => ?_
    rw [List.filter_append, List.filter_filter, List.filter_filter]
    -- the items of one key are on the same side
    by_cases hk : ∃ a ∈ l, key a = k ∧ p a = true
    · obtain ⟨a, ha, hka, hpa⟩ := hk
      have hside : ∀ b ∈ l, key b = k → p b = true := by
        intro b hb hkb
        by_contra hpb
        exact (h a ha b hb hpa (Bool.eq_false_of_not_eq_true hpb)).ne (hka.trans hkb.symm)
      have hnone : (l.filter fun b => decide (key b = k) && !p b) = [] := by
        refine List.filter_eq_nil_iff.2 fun b hb => ?_
        simp only [Bool.and_eq_true, decide_eq_true_eq, Bool.not_eq_true', not_and]
        exact fun hkb => by simp [hside b hb hkb]
      rw [hnone, List.append_nil]
      refine List.filter_congr fun b hb => ?_
      by_cases hkb : key b = k
      · simp [hkb, hside b hb hkb]
      · simp [hkb]
    · have hnone : (l.filter fun b => decide (key b = k) && p b) = [] := by
        refine List.filter_eq_nil_iff.2 fun b hb => ?_
        simp only [Bool.and_eq_true, decide_eq_true_eq]
        exact fun hb' => hk ⟨b, hb, hb'⟩
      rw [hnone, List.nil_append]
      refine List.filter_congr fun b hb => ?_
      by_cases hkb : key b = k
      · have hpb : p b = false := Bool.eq_false_of_not_eq_true fun hpb => hk ⟨b, hb, hkb, hpb⟩
        simp [hkb, hpb]
      · simp [hkb]
  · intro a ha b hb
    obtain ⟨ha, hpa⟩ := List.mem_filter.1 ha
    obtain ⟨hb, hpb⟩ := List.mem_filter.1 hb
    exact h a ha b hb hpa (by simpa using hpb)

/-- Every key keeps an item. -/
theorem exists_mem_lastByKey (h : a ∈ l) : ∃ b ∈ lastByKey key l, key b = key a := by
  have hne : (l.filter fun b => key b = key a) ≠ [] :=
    List.ne_nil_of_mem (List.mem_filter.2 ⟨h, by simp⟩)
  have hlast := List.getLast?_eq_some_getLast hne
  have hkey := (key_of_getLast? hlast).2
  refine ⟨_, mem_lastByKey.2 ?_, hkey⟩
  rw [hkey, hlast]

/-- Where every key has one item, a predicate that holds at one key only counts at most one. -/
theorem countP_eq_of_key (h : l.Pairwise fun a b => key a < key b) (ha : a ∈ l) (p : α → Bool)
    (hp : ∀ b ∈ l, p b = true → key b = key a) : l.countP p = if p a = true then 1 else 0 := by
  induction l with
  | nil => cases ha
  | cons b rest ih =>
    obtain ⟨hb, hrest⟩ := List.pairwise_cons.1 h
    have hpRest : ∀ c ∈ rest, p c = true → key c = key a := fun c hc => hp c (List.mem_cons_of_mem _ hc)
    rcases List.mem_cons.1 ha with rfl | ha
    · have hnone : rest.countP p = 0 :=
        List.countP_eq_zero.2 fun c hc hpc => (hb c hc).ne (hpRest c hc hpc).symm
      rw [List.countP_cons, hnone, zero_add]
    · have hpb : ¬ p b = true := fun hpb => (hb a ha).ne (hp b List.mem_cons_self hpb)
      rw [List.countP_cons_of_neg hpb, ih hrest ha hpRest]

/-- Two keys that agree on the items. -/
theorem lastByKey_congr {key' : α → κ} (h : ∀ a ∈ l, key a = key' a) :
    lastByKey key l = lastByKey key' l := by
  have hfilter : ∀ k, (l.filter fun a => key a = k) = l.filter fun a => key' a = k :=
    fun k => List.filter_congr fun a ha => by rw [h a ha]
  simp only [lastByKey, List.map_congr_left h, hfilter]

end ResearchLab.Foundation
