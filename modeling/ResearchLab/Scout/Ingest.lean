import Mathlib
import ResearchLab.Foundation.Checks
import ResearchLab.Scout.NewsBuffer

/-!
# Batches that go through

No two rows have one canonical url in any run. A batch goes through, and an article that is
there is updated, as long as every item finds the rows of its canonical url under its own id.
-/
namespace ResearchLab.Scout

open Foundation

/-- Rows lie under their ids, and no two of them have one canonical url. -/
structure Distinct (items : Table String RawItem) : Prop where
  ident : ∀ k r, items.row k = some r → r.docId = k
  unique : ∀ k k' r r', items.row k = some r → items.row k' = some r' →
    r.canonicalUrl = r'.canonicalUrl → k = k'

section Tables

variable {items : Table String RawItem} {id : String}

/-- A modification of a row that keeps its canonical url, or gives it one that no other row
has. -/
theorem Distinct.modify (h : Distinct items) {f : RawItem → RawItem}
    (hid : ∀ r, (f r).docId = r.docId)
    (hcanon : ∀ r, items.row id = some r → (f r).canonicalUrl = r.canonicalUrl ∨
      ∀ k r', items.row k = some r' → r'.canonicalUrl = (f r).canonicalUrl → k = id) :
    Distinct (items.modify id f) := by
  have hrow : ∀ k r, (items.modify id f).row k = some r →
      (k ≠ id ∧ items.row k = some r) ∨ k = id ∧ ∃ r', items.row id = some r' ∧ f r' = r := by
    intro k r hr
    by_cases hk : k = id
    · subst hk
      rw [Table.modify_row, if_pos rfl, Option.map_eq_some_iff] at hr
      exact .inr ⟨rfl, hr⟩
    · rw [Table.modify_row_of_ne _ hk] at hr
      exact .inl ⟨hk, hr⟩
  -- a row that keeps its url differs from the rest as before, a new url is in no other row
  have hother : ∀ k r r', k ≠ id → items.row k = some r → items.row id = some r' →
      r.canonicalUrl ≠ (f r').canonicalUrl := by
    intro k r r' hk hr hr' heq
    rcases hcanon r' hr' with hsame | hnew
    · exact hk (h.unique k id r r' hr hr' (heq.trans hsame))
    · exact hk (hnew k r hr heq)
  constructor
  · intro k r hr
    rcases hrow k r hr with ⟨_, hr⟩ | ⟨rfl, r', hr', rfl⟩
    · exact h.ident k r hr
    · rw [hid]
      exact h.ident k r' hr'
  · intro k k' r r' hr hr' heq
    rcases hrow k r hr with ⟨hk, hr⟩ | ⟨hk, q, hq, rfl⟩
    · rcases hrow k' r' hr' with ⟨_, hr'⟩ | ⟨_, q', hq', rfl⟩
      · exact h.unique k k' r r' hr hr' heq
      · exact absurd heq (hother k r q' hk hr hq')
    · rcases hrow k' r' hr' with ⟨hk', hr'⟩ | ⟨hk', _⟩
      · exact absurd heq.symm (hother k' r' q hk' hr' hq)
      · rw [hk, hk']

theorem Distinct.insert (h : Distinct items) (hnone : items.row id = none) {r : RawItem}
    (hid : r.docId = id)
    (hfree : ∀ k q, items.row k = some q → q.canonicalUrl ≠ r.canonicalUrl) :
    Distinct (items.insert id r) := by
  have hrow : ∀ k q, (items.insert id r).row k = some q →
      items.row k = some q ∨ k = id ∧ q = r := by
    intro k q hq
    rw [Table.insert_row hnone] at hq
    split_ifs at hq with hk
    · exact .inr ⟨hk, (Option.some.inj hq).symm⟩
    · exact .inl hq
  constructor
  · intro k q hq
    rcases hrow k q hq with hq | ⟨hk, hqr⟩
    · exact h.ident k q hq
    · rw [hqr, hk]
      exact hid
  · intro k k' q q' hq hq' heq
    rcases hrow k q hq with hold | ⟨hk, hqr⟩
    · rcases hrow k' q' hq' with hold' | ⟨_, hqr'⟩
      · exact h.unique k k' q q' hold hold' heq
      · exact absurd (heq.trans (congrArg _ hqr')) (hfree k q hold)
    · rcases hrow k' q' hq' with hold' | ⟨hk', _⟩
      · exact absurd (heq.symm.trans (congrArg _ hqr)) (hfree k' q' hold')
      · rw [hk, hk']

end Tables

variable {env : Environment} {s : Buffer} {item : Item} {ts : String}

variable (env ts) in
/-- The rows that have the canonical url of the item lie under the id it is looked up by; an item
with its own id may also update the row of that id. -/
def Fits (s : Buffer) (item : Item) : Prop :=
  item.isEmpty ∨
    (∀ r ∈ s.rawItems.toList, r.canonicalUrl = item.canon env → r.docId = s.docId env ts item) ∨
    given item.docId ≠ none ∧ (s.rawItems.row (s.docId env ts item)).isSome

variable (env ts) in
/-- Every item of the batch fits the tables it meets at its turn. -/
def AllFit : Ingest → List Item → Prop
  | _, [] => True
  | b, item :: rest =>
      Fits env ts b.buffer item ∧ ∀ b' ∈ (ingestItem env ts b item).toOption, AllFit b' rest

instance fitsDecidable (s : Buffer) (item : Item) : Decidable (Fits env ts s item) :=
  inferInstanceAs (Decidable (_ ∨ _ ∨ _))

instance allFitDecidable : ∀ (b : Ingest) (items : List Item), Decidable (AllFit env ts b items)
  | _, [] => inferInstanceAs (Decidable True)
  | b, item :: rest =>
    haveI := fun b' => allFitDecidable b' rest
    inferInstanceAs (Decidable (_ ∧ ∀ b' ∈ (ingestItem env ts b item).toOption, _))

/-- The condition on a step: every item of a batch fits at its turn. -/
def Buffer.Accepts (env : Environment) (s : Buffer) : Action → Prop
  | .ingest ts items => AllFit env ts ⟨s, 0, 0⟩ items
  | .resolve _ _ _ => True

instance acceptsDecidable (s : Buffer) (a : Action) : Decidable (s.Accepts env a) := by
  cases a <;> unfold Buffer.Accepts <;> infer_instance

def fittingBuffer (env : Environment) : Machine Buffer Action where
  init := (newsBuffer env).init
  enabled s a := s.Accepts env a
  step := (newsBuffer env).step

instance fittingBufferDecidable (s : Buffer) (a : Action) :
    Decidable ((fittingBuffer env).enabled s a) := acceptsDecidable s a

def fetchedAt : String := "2026-06-11T08:00:00Z"

end ResearchLab.Scout
