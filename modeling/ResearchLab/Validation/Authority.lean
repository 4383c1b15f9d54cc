import Mathlib
import ResearchLab.Foundation.Machine

/-!
# The current validation generation

Validation runs of any number of processes replace one manifest, and mark the build that is to
replace it by another. Writing takes a lock; the status that a run acts on is read before it.
-/
namespace ResearchLab.Validation
open Foundation

/-- The fields of a published manifest that decide about authority. -/
structure Generation (κ ι : Type) where
  producerCode : κ
  sourcePendingBuildId : Option ι
  active : List String
  deriving DecidableEq

/-- The pending marker. -/
structure PendingBuild (κ ι : Type) where
  buildId : ι
  producerCode : κ
  deriving DecidableEq

inductive ManifestStatus
  | legacyAbsent | pending | codeStale | codeCurrent
  deriving DecidableEq

/-- What a run has claimed. -/
inductive Batch
  | nothing | historical | fresh
  deriving DecidableEq

/-- Where a run stands before its next step on the generations. -/
inductive Phase (κ ι : Type)
  | idle
  | emptying
  | starting (priorGenerationExists : Bool)
  | marking (priorGenerationExists : Bool) (producerCode : κ)
  | building (buildId : ι) (priorGenerationExists : Bool)
  | publishing (generation : Generation κ ι)
  | clearing (buildId : ι)
  deriving DecidableEq

/-- The two files, the producer code on disk, the runs, and the builds that were begun, published
and cleared so far. -/
structure Store (π κ ι : Type) where
  code : κ
  current : Option (Generation κ ι) := none
  pending : Option (PendingBuild κ ι) := none
  phase : π → Phase κ ι
  begun : List ι := []
  published : List ι := []
  cleared : List ι := []

section
variable {π κ ι : Type} [DecidableEq π] [DecidableEq κ] [DecidableEq ι]

/-- `load_pending_generation`: a marker that the current generation names is consumed. -/
def loadPendingGeneration (s : Store π κ ι) : Option (PendingBuild κ ι) :=
  match s.pending with
  | none => none
  | some pending =>
    match s.current with
    | none => some pending
    | some current =>
      if current.sourcePendingBuildId = some pending.buildId then none else some pending

/-- `current_generation_manifest_status`. -/
def manifestStatus (s : Store π κ ι) : ManifestStatus :=
  match s.current with
  | some current => if current.producerCode = s.code then .codeCurrent else .codeStale
  | none =>
    match loadPendingGeneration s with
    | some _ => .pending
    | none => .legacyAbsent

def Store.setPhase (s : Store π κ ι) (p : π) (phase : Phase κ ι) : Store π κ ι :=
  { s with phase := Function.update s.phase p phase }

/-- `write_pending_generation` under the lock. -/
def writePending (s : Store π κ ι) (pending : PendingBuild κ ι) : Store π κ ι :=
  { s with pending := some pending, begun := s.begun ++ [pending.buildId] }

/-- `write_current_generation` under the lock; a crash may fall between its two file operations. -/
def writeCurrent (s : Store π κ ι) (generation : Generation κ ι) (crashed : Bool) : Store π κ ι :=
  match generation.sourcePendingBuildId with
  | none => { s with current := some generation }
  | some buildId =>
    if s.pending.map PendingBuild.buildId ≠ some buildId then s
    else
      { s with
        current := some generation
        pending := if crashed then s.pending else none
        published := s.published ++ [buildId] }

/-- `clear_pending_generation` under the lock. -/
def clearPending (s : Store π κ ι) (buildId : ι) : Store π κ ι :=
  if s.pending.map PendingBuild.buildId ≠ some buildId then s
  else { s with pending := none, cleared := s.cleared ++ [buildId] }

inductive Action (π κ ι : Type)
  /-- The producer code on disk changes. -/
  | deploy (code : κ)
  | crash (p : π)
  /-- A run has claimed its batch and reads the status. -/
  | claim (p : π) (batch : Batch)
  /-- A run reads the producer code for its manifest. -/
  | read (p : π)
  | mark (p : π) (buildId : ι)
  /-- A run has its verdicts: the active candidates, or none that is fresh. -/
  | conclude (p : π) (active : Option (List String))
  | publish (p : π) (crashed : Bool)
  | clear (p : π)

/-- The steps of `run_due_validations` that touch generations. -/
def step (s : Store π κ ι) : Action π κ ι → Store π κ ι
  | .deploy code => { s with code }
  | .crash p => s.setPhase p .idle
  | .claim p batch =>
    match s.phase p, batch with
    | .idle, .fresh => s.setPhase p (.starting s.current.isSome)
    | .idle, _ => s.setPhase p (if manifestStatus s = .codeStale then .emptying else .idle)
    | _, _ => s
  | .read p =>
    match s.phase p with
    | .emptying => s.setPhase p (.publishing ⟨s.code, none, []⟩)
    | .starting prior => s.setPhase p (.marking prior s.code)
    | _ => s
  | .mark p buildId =>
    match s.phase p with
    | .marking prior producerCode =>
      (writePending s ⟨buildId, producerCode⟩).setPhase p (.building buildId prior)
    | _ => s
  | .conclude p active =>
    match s.phase p, active with
    | .building buildId _, some active => s.setPhase p (.publishing ⟨s.code, some buildId, active⟩)
    | .building buildId prior, none => s.setPhase p (if prior then .clearing buildId else .idle)
    | _, _ => s
  | .publish p crashed =>
    match s.phase p with
    | .publishing generation => (writeCurrent s generation crashed).setPhase p .idle
    | _ => s
  | .clear p =>
    match s.phase p with
    | .clearing buildId => (clearPending s buildId).setPhase p .idle
    | _ => s

/-- Build ids are new. -/
def freshBuild (s : Store π κ ι) : Action π κ ι → Bool
  | .mark _ buildId => buildId ∉ s.begun
  | _ => true

/-- Runs of any number of processes in any order. -/
def validators (π κ ι : Type) [DecidableEq π] [DecidableEq κ] [DecidableEq ι] :
    Machine (Store π κ ι) (Action π κ ι) where
  init s := ∃ code, s = { code, phase := fun _ => .idle }
  enabled s action := freshBuild s action
  step := step

/-! ## Orderly publications -/

/-- An empty generation is published while the current one is still stale, and not over one whose
marker was left behind. -/
def emptiesInOrder (s : Store π κ ι) : Action π κ ι → Bool
  | .publish p _ =>
    match s.phase p with
    | .publishing ⟨_, none, _⟩ =>
      match s.current with
      | none => true
      | some current => current.producerCode ≠ s.code &&
          (current.sourcePendingBuildId = none ||
            current.sourcePendingBuildId ≠ s.pending.map PendingBuild.buildId)
    | _ => true
  | _ => true

def orderlyValidators (π κ ι : Type) [DecidableEq π] [DecidableEq κ] [DecidableEq ι] :
    Machine (Store π κ ι) (Action π κ ι) where
  init s := ∃ code, s = { code, phase := fun _ => .idle }
  enabled s action := freshBuild s action && emptiesInOrder s action
  step := step

end

section
variable {π κ ι : Type}

structure Inv (s : Store π κ ι) : Prop where
  latest : ∀ q, s.pending = some q → s.begun.getLast? = some q.buildId ∧ q.buildId ∉ s.cleared
  consumed : ∀ q, s.pending = some q → q.buildId ∈ s.published →
    ∃ m, s.current = some m ∧ m.sourcePendingBuildId = some q.buildId
  source : ∀ m b, s.current = some m → m.sourcePendingBuildId = some b → b ∈ s.published
  marked : ∀ b, s.begun.getLast? = some b → b ∉ s.published → b ∉ s.cleared →
    ∃ q, s.pending = some q ∧ q.buildId = b
  published_begun : ∀ b ∈ s.published, b ∈ s.begun
  cleared_begun : ∀ b ∈ s.cleared, b ∈ s.begun

/-- The files and the history, without code and phases. -/
theorem Inv.congr {s t : Store π κ ι} (h : Inv s) (hcurrent : t.current = s.current)
    (hpending : t.pending = s.pending) (hbegun : t.begun = s.begun)
    (hpublished : t.published = s.published) (hcleared : t.cleared = s.cleared) : Inv t := by
  obtain ⟨hlatest, hconsumed, hsource, hmarked, hpb, hcb⟩ := h
  constructor <;> simpa only [hcurrent, hpending, hbegun, hpublished, hcleared]

theorem Inv.writePending {s : Store π κ ι} (h : Inv s) {q : PendingBuild κ ι}
    (hq : q.buildId ∉ s.begun) : Inv (writePending s q) where
  latest q' hq' := by
    obtain rfl := Option.some.inj hq'
    exact ⟨by simp [Validation.writePending], fun hc => hq (h.cleared_begun _ hc)⟩
  consumed q' hq' hp := by
    obtain rfl := Option.some.inj hq'
    exact absurd (h.published_begun _ hp) hq
  source := h.source
  marked b hb _ _ := by
    have hlast : q.buildId = b := by simpa [Validation.writePending] using hb
    exact ⟨q, rfl, hlast⟩
  published_begun b hb := List.mem_append_left _ (h.published_begun b hb)
  cleared_begun b hb := List.mem_append_left _ (h.cleared_begun b hb)

/-- A publication from a build is from the latest one begun. -/
theorem Inv.latest_of_marker {s : Store π κ ι} (h : Inv s) {b : ι}
    (hmarker : s.pending.map PendingBuild.buildId = some b) : s.begun.getLast? = some b := by
  obtain ⟨q, hq, rfl⟩ := Option.map_eq_some_iff.1 hmarker
  exact (h.latest q hq).1

end

section
variable {π κ ι : Type} [DecidableEq ι]

theorem Inv.writeCurrent {s : Store π κ ι} (h : Inv s) {generation : Generation κ ι} {crashed : Bool}
    (horder : generation.sourcePendingBuildId = none → ∀ m, s.current = some m →
      ∀ q, s.pending = some q → m.sourcePendingBuildId ≠ some q.buildId) :
    Inv (writeCurrent s generation crashed) := by
  cases hsource : generation.sourcePendingBuildId with
  | none =>
    simp only [Validation.writeCurrent, hsource]
    refine ⟨h.latest, fun q hq hp => ?_, fun m b hm hb => ?_, h.marked, h.published_begun,
      h.cleared_begun⟩
    · obtain ⟨m, hm, hmq⟩ := h.consumed q hq hp
      exact absurd hmq (horder hsource m hm q hq)
    · obtain rfl := Option.some.inj hm
      rw [hsource] at hb
      cases hb
  | some buildId =>
    simp only [Validation.writeCurrent, hsource]
    split_ifs with hmarker hcrashed
    · exact h
    · rw [not_not] at hmarker
      refine ⟨h.latest, fun q hq _ => ⟨generation, rfl, ?_⟩, fun m b hm hb => ?_,
        fun b hb hp hc => ?_, fun b hb => ?_, h.cleared_begun⟩
      · simp only at hq
        rw [hq] at hmarker
        rw [hsource, ← hmarker]
        rfl
      · obtain rfl := Option.some.inj hm
        obtain rfl := Option.some.inj (hb.symm.trans hsource)
        simp
      · exact h.marked b hb (fun hp' => hp (List.mem_append_left _ hp')) hc
      · rcases List.mem_append.1 hb with hb | hb
        · exact h.published_begun b hb
        · rw [List.mem_singleton.1 hb]
          exact List.mem_of_getLast? (h.latest_of_marker hmarker)
    · rw [not_not] at hmarker
      refine ⟨by simp, by simp, fun m b hm hb => ?_, fun b hb hp _ => ?_, fun b hb => ?_,
        h.cleared_begun⟩
      · obtain rfl := Option.some.inj hm
        obtain rfl := Option.some.inj (hb.symm.trans hsource)
        simp
      · obtain rfl := Option.some.inj ((h.latest_of_marker hmarker).symm.trans hb)
        simp at hp
      · rcases List.mem_append.1 hb with hb | hb
        · exact h.published_begun b hb
        · rw [List.mem_singleton.1 hb]
          exact List.mem_of_getLast? (h.latest_of_marker hmarker)

theorem Inv.clearPending {s : Store π κ ι} (h : Inv s) (buildId : ι) :
    Inv (clearPending s buildId) := by
  unfold Validation.clearPending
  split_ifs with hmarker
  · exact h
  · rw [not_not] at hmarker
    refine ⟨by simp, by simp, h.source, fun b hb _ hc => ?_, h.published_begun, fun b hb => ?_⟩
    · obtain rfl := Option.some.inj ((h.latest_of_marker hmarker).symm.trans hb)
      simp at hc
    · rcases List.mem_append.1 hb with hb | hb
      · exact h.cleared_begun b hb
      · rw [List.mem_singleton.1 hb]
        exact List.mem_of_getLast? (h.latest_of_marker hmarker)

/-- What an orderly publication of an empty generation finds. -/
theorem of_emptiesInOrder [DecidableEq κ] {s : Store π κ ι} {p : π} {crashed : Bool} {generation : Generation κ ι}
    (hphase : s.phase p = .publishing generation)
    (horder : emptiesInOrder s (.publish p crashed)) (hempty : generation.sourcePendingBuildId = none)
    {m : Generation κ ι} (hm : s.current = some m) :
    m.producerCode ≠ s.code ∧ ∀ q, s.pending = some q → m.sourcePendingBuildId ≠ some q.buildId := by
  obtain ⟨code, source, active⟩ := generation
  simp only at hempty
  subst hempty
  simp only [emptiesInOrder, hphase, hm, Bool.and_eq_true, Bool.or_eq_true, decide_eq_true_eq] at horder
  refine ⟨horder.1, fun q hq hsource => ?_⟩
  rcases horder.2 with hnone | hne
  · rw [hnone] at hsource
    cases hsource
  · exact hne (by rw [hsource, hq]; rfl)

end

/-! ## Runs -/

section
variable {π κ ι : Type} [DecidableEq π] [DecidableEq κ] [DecidableEq ι] {s : Store π κ ι}

omit [DecidableEq κ] [DecidableEq ι] in
theorem Inv.setPhase (h : Inv s) (p : π) (phase : Phase κ ι) : Inv (s.setPhase p phase) :=
  h.congr rfl rfl rfl rfl rfl

theorem inv_step {action : Action π κ ι} (h : Inv s)
    (haction : (orderlyValidators π κ ι).enabled s action) :
    Inv ((orderlyValidators π κ ι).step s action) := by
  obtain ⟨hbuild, horder⟩ := Bool.and_eq_true_iff.1 haction
  simp only [orderlyValidators]
  cases action with
  | deploy code => exact h.congr rfl rfl rfl rfl rfl
  | crash p => exact h.setPhase p .idle
  | claim p batch =>
    simp only [step]
    split
    · exact h.setPhase p _
    · exact h.setPhase p _
    · exact h
  | read p =>
    simp only [step]
    split
    · exact h.setPhase p _
    · exact h.setPhase p _
    · exact h
  | mark p buildId =>
    simp only [step]
    split
    · exact (h.writePending (by simpa [freshBuild] using hbuild)).setPhase p _
    · exact h
  | conclude p active =>
    simp only [step]
    split
    · exact h.setPhase p _
    · exact h.setPhase p _
    · exact h
  | publish p crashed =>
    simp only [step]
    split
    · next generation hphase =>
      exact (h.writeCurrent fun hempty m hm =>
        (of_emptiesInOrder hphase horder hempty hm).2).setPhase p _
    · exact h
  | clear p =>
    simp only [step]
    split
    · next buildId _ => exact (h.clearPending buildId).setPhase p _
    · exact h

theorem inv_of_reachable (h : (orderlyValidators π κ ι).Reachable s) : Inv s := by
  refine h.invariant ?_ fun _ _ _ hs haction => inv_step hs haction
  rintro _ ⟨code, rfl⟩
  constructor <;> simp

omit [DecidableEq π] [DecidableEq κ] in
theorem Inv.loadPending_iff (h : Inv s) (b : ι) :
    (∃ q, loadPendingGeneration s = some q ∧ q.buildId = b) ↔
      s.begun.getLast? = some b ∧ b ∉ s.published ∧ b ∉ s.cleared := by
  constructor
  · rintro ⟨q, hload, rfl⟩
    have hmarker : s.pending = some q ∧
        ∀ m, s.current = some m → m.sourcePendingBuildId ≠ some q.buildId := by
      unfold loadPendingGeneration at hload
      cases hpending : s.pending with
      | none => simp [hpending] at hload
      | some q' =>
        cases hcurrent : s.current with
        | none =>
          simp only [hpending, hcurrent, Option.some.injEq] at hload
          exact ⟨by rw [hload], by simp⟩
        | some m =>
          simp only [hpending, hcurrent] at hload
          split_ifs at hload with hsource
          obtain rfl := Option.some.inj hload
          exact ⟨rfl, fun m' hm' => by rwa [← Option.some.inj hm']⟩
    obtain ⟨hlast, hcleared⟩ := h.latest q hmarker.1
    refine ⟨hlast, fun hp => ?_, hcleared⟩
    obtain ⟨m, hm, hsource⟩ := h.consumed q hmarker.1 hp
    exact hmarker.2 m hm hsource
  · rintro ⟨hlast, hpublished, hcleared⟩
    obtain ⟨q, hq, rfl⟩ := h.marked b hlast hpublished hcleared
    refine ⟨q, ?_, rfl⟩
    cases hcurrent : s.current with
    | none => simp [loadPendingGeneration, hq, hcurrent]
    | some m =>
      have hsource : m.sourcePendingBuildId ≠ some q.buildId := fun hsource =>
        hpublished (h.source m _ hcurrent hsource)
      simp [loadPendingGeneration, hq, hcurrent, hsource]

/-- The step of an orderly run that replaces a generation of the running code. -/
theorem Inv.replaced (h : Inv s) {action : Action π κ ι}
    (haction : (orderlyValidators π κ ι).enabled s action) {m : Generation κ ι}
    (hm : s.current = some m) (hcode : m.producerCode = s.code)
    (hreplaced : ((orderlyValidators π κ ι).step s action).current ≠ s.current) :
    ∃ m' b, ((orderlyValidators π κ ι).step s action).current = some m' ∧
      m'.sourcePendingBuildId = some b ∧ s.begun.getLast? = some b := by
  obtain ⟨-, horder⟩ := Bool.and_eq_true_iff.1 haction
  simp only [orderlyValidators] at hreplaced ⊢
  cases action with
  | publish p crashed =>
    cases hphase : s.phase p with
    | publishing generation =>
      simp only [step, hphase, Store.setPhase, Validation.writeCurrent] at hreplaced ⊢
      cases hsource : generation.sourcePendingBuildId with
      | none => exact absurd hcode (of_emptiesInOrder hphase horder hsource hm).1
      | some b =>
        simp only [hsource] at hreplaced ⊢
        split_ifs at hreplaced ⊢ with hmarker
        · exact absurd rfl hreplaced
        · exact ⟨generation, b, rfl, hsource, h.latest_of_marker (not_not.1 hmarker)⟩
        · exact ⟨generation, b, rfl, hsource, h.latest_of_marker (not_not.1 hmarker)⟩
    | _ =>
      simp only [step, hphase] at hreplaced
      exact absurd rfl hreplaced
  | deploy code => exact absurd rfl hreplaced
  | crash p => exact absurd rfl hreplaced
  | claim p batch =>
    simp only [step] at hreplaced
    split at hreplaced <;> exact absurd rfl hreplaced
  | read p =>
    simp only [step] at hreplaced
    split at hreplaced <;> exact absurd rfl hreplaced
  | mark p buildId =>
    simp only [step] at hreplaced
    split at hreplaced <;> exact absurd rfl hreplaced
  | conclude p active =>
    simp only [step] at hreplaced
    split at hreplaced <;> exact absurd rfl hreplaced
  | clear p =>
    simp only [step] at hreplaced
    split at hreplaced
    · simp only [Store.setPhase, Validation.clearPending] at hreplaced
      split_ifs at hreplaced <;> exact absurd rfl hreplaced
    · exact absurd rfl hreplaced

/-- With orderly publications a generation of the running code is replaced only from the latest
build, and the pending build is the latest one while it is neither published nor cleared. -/
theorem authority_never_regresses (h : (orderlyValidators π κ ι).Reachable s) :
    (∀ action, (orderlyValidators π κ ι).enabled s action →
      ∀ m, s.current = some m → m.producerCode = s.code →
        ((orderlyValidators π κ ι).step s action).current ≠ s.current →
        ∃ m' b, ((orderlyValidators π κ ι).step s action).current = some m' ∧
          m'.sourcePendingBuildId = some b ∧ s.begun.getLast? = some b) ∧
      ∀ b, (∃ q, loadPendingGeneration s = some q ∧ q.buildId = b) ↔
        s.begun.getLast? = some b ∧ b ∉ s.published ∧ b ∉ s.cleared :=
  ⟨fun _ haction _ hm hcode hreplaced => (inv_of_reachable h).replaced haction hm hcode hreplaced,
    (inv_of_reachable h).loadPending_iff⟩

end

/-! ## Two runs -/

/-- The store of a new root, under the first producer code. -/
def newStore : Store ℕ ℕ ℕ := { code := 1, phase := fun _ => .idle }

/-- A run that publishes one candidate. -/
def publishesOne (p build : ℕ) : List (Action ℕ ℕ ℕ) :=
  [.claim p .fresh, .read p, .mark p build, .conclude p (some ["a"]), .publish p false]

theorem authority_never_regresses_published :
    (∃ m' b, ((orderlyValidators ℕ ℕ ℕ).run newStore
        (publishesOne 0 7 ++ publishesOne 1 8)).current = some m' ∧
      m'.sourcePendingBuildId = some b ∧
      ((orderlyValidators ℕ ℕ ℕ).run newStore
        (publishesOne 0 7 ++ (publishesOne 1 8).dropLast)).begun.getLast? = some b) := by
  have hreachable : (orderlyValidators ℕ ℕ ℕ).Reachable
      ((orderlyValidators ℕ ℕ ℕ).run newStore (publishesOne 0 7 ++ (publishesOne 1 8).dropLast)) :=
    Machine.reachable_run _ ⟨1, rfl⟩ (by
      simp only [publishesOne, List.cons_append, List.nil_append, List.dropLast, Machine.Runs,
        orderlyValidators]
      decide)
  exact (authority_never_regresses hreachable).1 (.publish 1 false) (by
    simp only [orderlyValidators]
    decide) ⟨1, some 7, ["a"]⟩ (by decide) (by decide) (by decide)

/-- A run finds the code stale, another one publishes under the running code, and the first
publishes its empty generation over it. -/
theorem empty_generation_replaces_authority :
    let stale := publishesOne 0 7 ++ [.deploy 2, .claim 1 .nothing, .read 1] ++ publishesOne 2 8
    let s := (validators ℕ ℕ ℕ).run newStore stale
    (validators ℕ ℕ ℕ).Runs newStore (stale ++ [.publish 1 false]) ∧
      s.current = some ⟨2, some 8, ["a"]⟩ ∧ s.code = 2 ∧
      ((validators ℕ ℕ ℕ).step s (.publish 1 false)).current = some ⟨2, none, []⟩ := by
  simp only [publishesOne, List.cons_append, List.nil_append, Machine.Runs, validators]
  decide

end ResearchLab.Validation
