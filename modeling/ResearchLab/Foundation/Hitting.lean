import Mathlib

/-!
# Which set a path hits first

Paths are functions of a linearly ordered time. A path hits `A` before `B` if it is in `A` at some
time and has not been in `B` until then.
-/
namespace ResearchLab.Foundation

universe u v

variable {T : Type u} {X : Type v} [LinearOrder T] {f : T → X} {A B : Set X}

def HitsFirst (f : T → X) (A B : Set X) : Prop := ∃ t, f t ∈ A ∧ ∀ s ≤ t, f s ∉ B

theorem HitsFirst.asymm (h : HitsFirst f A B) : ¬ HitsFirst f B A := by
  rintro ⟨t', hB, hA⟩
  obtain ⟨t, htA, htB⟩ := h
  rcases le_total t t' with hle | hle
  · exact hA t hle htA
  · exact htB t' hle hB

/-- What is never hit is not hit first, and the other set is if it is ever hit. -/
theorem hitsFirst_of_avoids (hB : ∀ t, f t ∉ B) {t : T} (ht : f t ∈ A) : HitsFirst f A B :=
  ⟨t, ht, fun s _ => hB s⟩

theorem hitsFirst_of_start [OrderBot T] (hdisjoint : Disjoint A B) (h : f ⊥ ∈ A) :
    HitsFirst f A B := by
  refine ⟨⊥, h, fun s hs => ?_⟩
  rw [le_bot_iff.1 hs]
  exact hdisjoint.notMem_of_mem_left h

variable [TopologicalSpace X]

/-- A path that is ever in a closed set is there for a first time. -/
def HasHittingTimes (f : T → X) : Prop :=
  ∀ C : Set X, IsClosed C → ∀ t, f t ∈ C → ∃ first, IsLeast {s | f s ∈ C} first

theorem hasHittingTimes_of_wellFoundedLT [WellFoundedLT T] (f : T → X) : HasHittingTimes f := by
  intro C _ t ht
  exact ⟨_, WellFounded.min_mem wellFounded_lt {s | f s ∈ C} ⟨t, ht⟩,
    fun s hs => WellFounded.min_le wellFounded_lt hs⟩

theorem hasHittingTimes_of_continuous [TopologicalSpace T] [CompactSpace T] [ClosedIicTopology T]
    (hf : Continuous f) : HasHittingTimes f := by
  intro C hC t ht
  exact (hC.preimage hf).isCompact.exists_isLeast ⟨t, ht⟩

/-- A path that hits one of two disjoint closed sets hits one of them first. -/
theorem HasHittingTimes.hitsFirst_or (h : HasHittingTimes f) (hA : IsClosed A) (hB : IsClosed B)
    (hdisjoint : Disjoint A B) {t : T} (ht : f t ∈ A ∪ B) :
    HitsFirst f A B ∨ HitsFirst f B A := by
  obtain ⟨first, hfirst, hleast⟩ := h (A ∪ B) (hA.union hB) t ht
  rcases hfirst with hin | hin
  · refine .inl ⟨first, hin, fun s hs hsB => ?_⟩
    obtain rfl : s = first := le_antisymm hs (hleast (.inr hsB))
    exact hdisjoint.notMem_of_mem_left hin hsB
  · refine .inr ⟨first, hin, fun s hs hsA => ?_⟩
    obtain rfl : s = first := le_antisymm hs (hleast (.inl hsA))
    exact hdisjoint.notMem_of_mem_left hsA hin

end ResearchLab.Foundation
