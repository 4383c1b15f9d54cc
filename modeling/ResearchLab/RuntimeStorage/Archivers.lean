import Mathlib
import ResearchLab.Foundation.Machine

/-!
# Archivers at one pending directory

`archive_pending_segments` claims a segment by a rename to `.archiving`, and gives old claims back
first. The age of a claim is read off the modification time of the file, which the rename keeps.
Any number of runs move one operation at a time; what stands under the lock is one operation. Who
claimed a file and when is noted beside it, and no run reads the note.
-/
namespace ResearchLab.RuntimeStorage
open Foundation

/-- Claims younger than this are left alone. -/
def recoveryAge : ℚ := 300

/-- A `.archiving` file. -/
structure ClaimedFile (ι : Type*) where
  mtime : ℚ
  claimant : Option ι
  since : ℚ
  deriving DecidableEq

/-- Where a run is; the lists are the rest of what a glob gave. -/
inductive ArchiverStage
  | idle
  | recovering (todo : List ℕ)
  | clocked (name : ℕ) (clock : ℚ) (todo : List ℕ)
  | tested (name : ℕ) (time : ℚ) (todo : List ℕ)
  | claiming (todo : List ℕ)
  | working (name : ℕ) (since : ℚ) (todo : List ℕ)
  | releasing (name : ℕ) (since : ℚ) (todo : List ℕ)
  | failing (name : ℕ) (since : Option ℚ) (todo : List ℕ)
  | crashed
  deriving DecidableEq

/-- The claim that a run works on. -/
def ArchiverStage.claim? : ArchiverStage → Option (ℕ × ℚ)
  | working name since _ | releasing name since _ | failing name (some since) _ => some (name, since)
  | _ => none

/-- The `.sealed` files with their modification times, and the `.archiving` files. -/
structure PendingDir (ι : Type*) where
  now : ℚ
  sealed : ℕ → Option ℚ
  claimed : ℕ → Option (ClaimedFile ι)
  stage : ι → ArchiverStage

/-- A run starts with what it globs; a file operation, a lock or the archiving may fail. -/
inductive ArchiverOperation (ι : Type*)
  | start (p : ι) (interrupted : List ℕ)
  | list (p : ι) (pending : List ℕ)
  | move (p : ι) (fails : Bool)
  | crash (p : ι)
  | produce (name : ℕ) (mtime : ℚ)
  | tick (d : ℚ)

namespace PendingDir

variable {ι : Type*} [DecidableEq ι]

def goto (s : PendingDir ι) (p : ι) (l : ArchiverStage) : PendingDir ι :=
  { s with stage := Function.update s.stage p l }

/-- `claimed.rename(sealed)`, unless the claim has gone or a sealed file stands there. -/
def giveBack (s : PendingDir ι) (name : ℕ) : PendingDir ι :=
  match s.claimed name, s.sealed name with
  | some f, none =>
      { s with
        sealed := Function.update s.sealed name (some f.mtime)
        claimed := Function.update s.claimed name none }
  | _, _ => s

/-- `stat` of a claim by its modification time, against a clock read before. -/
def testAge (s : PendingDir ι) (p : ι) (name : ℕ) (clock : ℚ) (todo : List ℕ) : PendingDir ι :=
  match s.claimed name with
  | some f =>
      if max 0 (clock - f.mtime) < recoveryAge then s.goto p (.recovering todo)
      else s.goto p (.tested name s.now todo)
  | none => s.goto p (.recovering todo)

/-- The segment is claimed, unless it has gone or is claimed already. -/
def claim (s : PendingDir ι) (p : ι) (name : ℕ) (todo : List ℕ) : PendingDir ι :=
  match s.sealed name, s.claimed name with
  | some mtime, none =>
      { s.goto p (.working name s.now todo) with
        sealed := Function.update s.sealed name none
        claimed := Function.update s.claimed name (some ⟨mtime, some p, s.now⟩) }
  | _, _ => s.goto p (.claiming todo)

/-- The claimed file is read once more and removed. -/
def release (s : PendingDir ι) (p : ι) (name : ℕ) (since : ℚ) (todo : List ℕ) : PendingDir ι :=
  match s.claimed name with
  | some _ =>
      { s.goto p (.claiming todo) with claimed := Function.update s.claimed name none }
  | none => s.goto p (.failing name (some since) todo)

/-- The next operation of a run. -/
def advance (s : PendingDir ι) (p : ι) (fails : Bool) : PendingDir ι :=
  match s.stage p with
  | .idle => s
  | .recovering [] => s
  | .recovering (name :: todo) => s.goto p (.clocked name s.now todo)
  | .clocked name clock todo =>
      if fails then s.goto p (.recovering todo) else s.testAge p name clock todo
  | .tested name _ todo =>
      if fails then s.goto p (.recovering todo) else (s.giveBack name).goto p (.recovering todo)
  | .claiming [] => s.goto p .idle
  | .claiming (name :: todo) =>
      if fails then s.goto p (.failing name none todo) else s.claim p name todo
  | .working name since todo =>
      if fails then s.goto p (.failing name (some since) todo)
      else s.goto p (.releasing name since todo)
  | .releasing name since todo =>
      if fails then s.goto p (.failing name (some since) todo) else s.release p name since todo
  | .failing name _ todo =>
      if fails then s.goto p (.claiming todo) else (s.giveBack name).goto p (.claiming todo)
  | .crashed => s

def perform (s : PendingDir ι) : ArchiverOperation ι → PendingDir ι
  | .start p interrupted =>
      if s.stage p = .idle then s.goto p (.recovering interrupted) else s
  | .list p pending =>
      if s.stage p = .recovering [] then s.goto p (.claiming pending) else s
  | .move p fails => s.advance p fails
  | .crash p => s.goto p .crashed
  | .produce name mtime => { s with sealed := Function.update s.sealed name (some mtime) }
  | .tick d => { s with now := s.now + d }

/-- A new segment has a name of its own, and time does not go back. -/
def Admissible (s : PendingDir ι) : ArchiverOperation ι → Prop
  | .produce name _ => s.sealed name = none ∧ s.claimed name = none
  | .tick d => 0 ≤ d
  | _ => True

/-- A claim that a run has made less than 300 seconds ago, and still works on, is there. -/
def Exclusive (s : PendingDir ι) : Prop :=
  ∀ p name since, (s.stage p).claim? = some (name, since) → s.now < since + recoveryAge →
    ∃ mtime, s.claimed name = some ⟨mtime, some p, since⟩

/-- The run that made a claim still works on it. -/
def Held (s : PendingDir ι) (name : ℕ) (f : ClaimedFile ι) : Prop :=
  ∃ p ∈ f.claimant, (s.stage p).claim? = some (name, f.since)

/-- The four places where the code can take a claim that is still worked on:
the age test goes by the modification time, and passes only for a claim that is old itself;
the rename behind it finds no claim made since the test;
a run that raised before its own claim finds no claim to give back, or an old one;
a run whose claim is gone finds no other's claim, or an old one. -/
def Orderly (s : PendingDir ι) : ArchiverOperation ι → Prop
  | .move p false =>
      match s.stage p with
      | .clocked name clock _ => ∀ f ∈ s.claimed name, s.Held name f →
          recoveryAge ≤ max 0 (clock - f.mtime) → f.since + recoveryAge ≤ s.now
      | .tested name time _ => s.sealed name = none → ∀ f ∈ s.claimed name, s.Held name f →
          f.since < time
      | .failing name none _ => s.sealed name = none → ∀ f ∈ s.claimed name, s.Held name f →
          f.since + recoveryAge ≤ s.now
      | .failing name (some since) _ => s.sealed name = none → ∀ f ∈ s.claimed name,
          s.Held name f → (f.claimant = some p ∧ f.since = since) ∨ f.since + recoveryAge ≤ s.now
      | .releasing name since _ => ∀ f ∈ s.claimed name,
          s.Held name f → (f.claimant = some p ∧ f.since = since) ∨ f.since + recoveryAge ≤ s.now
      | _ => True
  | _ => True

instance admissibleDecidable (s : PendingDir ι) (a : ArchiverOperation ι) :
    Decidable (s.Admissible a) := by
  cases a <;> unfold Admissible <;> infer_instance

instance heldDecidable (s : PendingDir ι) (name : ℕ) (f : ClaimedFile ι) :
    Decidable (s.Held name f) := by
  unfold Held
  infer_instance

instance orderlyDecidable (s : PendingDir ι) (a : ArchiverOperation ι) :
    Decidable (s.Orderly a) := by
  unfold Orderly
  split
  · split <;> infer_instance
  · infer_instance

end PendingDir

open PendingDir

/-- All interleavings of the runs, from any files of earlier ones. -/
def archivers (ι : Type*) [DecidableEq ι] : Machine (PendingDir ι) (ArchiverOperation ι) where
  init s := ∀ p, s.stage p = .idle
  enabled := Admissible
  step := perform

/-- The interleavings in which every operation is orderly. -/
def orderlyArchivers (ι : Type*) [DecidableEq ι] :
    Machine (PendingDir ι) (ArchiverOperation ι) where
  init := (archivers ι).init
  enabled s a := (archivers ι).enabled s a ∧ s.Orderly a
  step := (archivers ι).step

instance archiversDecidable (ι : Type*) [DecidableEq ι] (s : PendingDir ι)
    (a : ArchiverOperation ι) : Decidable ((archivers ι).enabled s a) :=
  inferInstanceAs (Decidable (s.Admissible a))

instance orderlyArchiversDecidable (ι : Type*) [DecidableEq ι] (s : PendingDir ι)
    (a : ArchiverOperation ι) : Decidable ((orderlyArchivers ι).enabled s a) :=
  inferInstanceAs (Decidable (s.Admissible a ∧ s.Orderly a))

namespace PendingDir

variable {ι : Type*} [DecidableEq ι] {s : PendingDir ι} {p q : ι} {name : ℕ} {l : ArchiverStage}

/-- What a run has tested is old if it was claimed before the test and is still worked on. -/
def TestedOld (s : PendingDir ι) : Prop :=
  ∀ p name time todo, s.stage p = .tested name time todo →
    time ≤ s.now ∧ ∀ f ∈ s.claimed name, s.Held name f → f.since < time →
      f.since + recoveryAge ≤ time

/-- The invariant of the orderly runs. -/
structure Inv (s : PendingDir ι) : Prop where
  exclusive : s.Exclusive
  testedOld : s.TestedOld

@[simp] theorem goto_now : (s.goto p l).now = s.now := rfl

@[simp] theorem goto_sealed : (s.goto p l).sealed = s.sealed := rfl

@[simp] theorem goto_claimed : (s.goto p l).claimed = s.claimed := rfl

@[simp] theorem goto_stage_self : (s.goto p l).stage p = l := Function.update_self ..

theorem goto_stage_of_ne (h : q ≠ p) : (s.goto p l).stage q = s.stage q :=
  Function.update_of_ne h ..

theorem giveBack_goto : (s.giveBack name).goto p l = (s.goto p l).giveBack name := by
  unfold giveBack
  rw [goto_claimed, goto_sealed]
  cases s.claimed name with
  | none => rfl
  | some f =>
      cases s.sealed name with
      | none => rfl
      | some m => rfl

/-! ## Moving on -/

/-- A run that moves on takes no claim up again. -/
theorem Held.of_goto {f : ClaimedFile ι} (h : (s.goto p l).Held name f)
    (hl : l.claim? = none ∨ l.claim? = (s.stage p).claim?) : s.Held name f := by
  obtain ⟨q, hq, hclaim⟩ := h
  refine ⟨q, hq, ?_⟩
  by_cases hqp : q = p
  · subst hqp
    rw [goto_stage_self] at hclaim
    obtain hl | hl := hl
    · rw [hl] at hclaim
      cases hclaim
    · rwa [hl] at hclaim
  · rwa [goto_stage_of_ne hqp] at hclaim

/-- A run moves on with its claim or without one. -/
theorem Exclusive.goto (h : s.Exclusive) (hl : l.claim? = none ∨ l.claim? = (s.stage p).claim?) :
    (s.goto p l).Exclusive := by
  intro q name since hq hyoung
  by_cases hqp : q = p
  · subst hqp
    rw [goto_stage_self] at hq
    obtain hl | hl := hl
    · rw [hl] at hq
      cases hq
    · exact h q name since (hl ▸ hq) hyoung
  · rw [goto_stage_of_ne hqp] at hq
    exact h q name since hq hyoung

/-- A run moves on to a line that is not a test. -/
theorem TestedOld.goto (h : s.TestedOld) (hclaim : l.claim? = none ∨ l.claim? = (s.stage p).claim?)
    (hl : ∀ name time todo, l ≠ .tested name time todo) : (s.goto p l).TestedOld := by
  intro q name time todo hq
  by_cases hqp : q = p
  · subst hqp
    rw [goto_stage_self] at hq
    exact absurd hq (hl name time todo)
  · rw [goto_stage_of_ne hqp] at hq
    obtain ⟨htime, hold⟩ := h q name time todo hq
    exact ⟨htime, fun f hf hheld => hold f hf (hheld.of_goto hclaim)⟩

theorem Inv.goto (h : s.Inv) (hclaim : l.claim? = none ∨ l.claim? = (s.stage p).claim?)
    (htested : ∀ name time todo, l ≠ .tested name time todo) : (s.goto p l).Inv :=
  ⟨h.exclusive.goto hclaim, h.testedOld.goto hclaim htested⟩

/-! ## Taking a file away -/

/-- Nobody works on the claimed file of a name, or it is old. -/
def Takeable (s : PendingDir ι) (name : ℕ) : Prop :=
  ∀ f ∈ s.claimed name, s.Held name f → f.since + recoveryAge ≤ s.now

omit [DecidableEq ι] in
/-- A file that may be taken away is the young claim of no run. -/
theorem Inv.clear (h : s.Inv) (htake : s.Takeable name) (sealed : ℕ → Option ℚ) :
    ({ s with sealed, claimed := Function.update s.claimed name none } : PendingDir ι).Inv := by
  constructor
  · intro q n since hq hyoung
    obtain ⟨mtime, hf⟩ := h.exclusive q n since hq hyoung
    by_cases hn : n = name
    · subst hn
      exact absurd hyoung (not_lt.2 (htake _ hf ⟨q, rfl, hq⟩))
    · exact ⟨mtime, (Function.update_of_ne hn ..).trans hf⟩
  · intro q n time todo hq
    obtain ⟨htime, hold⟩ := h.testedOld q n time todo hq
    refine ⟨htime, fun f hf => hold f ?_⟩
    by_cases hn : n = name
    · subst hn
      simp at hf
    · simpa [Function.update_of_ne hn] using hf

omit [DecidableEq ι] in
theorem Inv.giveBack (h : s.Inv) (htake : s.sealed name = none → s.Takeable name) :
    (s.giveBack name).Inv := by
  unfold PendingDir.giveBack
  split
  · exact h.clear (htake ‹_›) _
  · exact h

/-! ## One operation -/

theorem Inv.testAge {clock : ℚ} {todo : List ℕ} (h : s.Inv)
    (hold : ∀ f ∈ s.claimed name, s.Held name f → recoveryAge ≤ max 0 (clock - f.mtime) →
      f.since + recoveryAge ≤ s.now) :
    (s.testAge p name clock todo).Inv := by
  unfold PendingDir.testAge
  split
  · rename_i f hf
    split
    · exact h.goto (.inl rfl) (by simp)
    · rename_i hage
      refine ⟨h.exclusive.goto (.inl rfl), fun q n time todo' hq => ?_⟩
      by_cases hqp : q = p
      · subst hqp
        rw [goto_stage_self, ArchiverStage.tested.injEq] at hq
        obtain ⟨rfl, rfl, -⟩ := hq
        refine ⟨le_rfl, fun g hg hheld _ => hold g hg (hheld.of_goto (.inl rfl)) ?_⟩
        rw [goto_claimed, hf] at hg
        obtain rfl := Option.some.inj hg
        exact not_lt.1 hage
      · rw [goto_stage_of_ne hqp] at hq
        obtain ⟨htime, hold'⟩ := h.testedOld q n time todo' hq
        exact ⟨htime, fun g hg hheld => hold' g hg (hheld.of_goto (.inl rfl))⟩
  · exact h.goto (.inl rfl) (by simp)

/-- A segment that is claimed was no run's. -/
theorem Inv.claim {todo : List ℕ} (h : s.Inv) : (s.claim p name todo).Inv := by
  unfold PendingDir.claim
  split
  · rename_i mtime hsealed hclaimed
    constructor
    · intro q n since hq hyoung
      by_cases hqp : q = p
      · subst hqp
        simp only [goto_stage_self, ArchiverStage.claim?, Option.some.injEq, Prod.mk.injEq] at hq
        obtain ⟨rfl, rfl⟩ := hq
        exact ⟨mtime, Function.update_self ..⟩
      · simp only [goto_stage_of_ne hqp] at hq
        obtain ⟨m, hf⟩ := h.exclusive q n since hq hyoung
        have hn : n ≠ name := by
          rintro rfl
          rw [hclaimed] at hf
          cases hf
        exact ⟨m, (Function.update_of_ne hn ..).trans hf⟩
    · intro q n time todo' hq
      by_cases hqp : q = p
      · subst hqp
        simp at hq
      · simp only [goto_stage_of_ne hqp] at hq
        obtain ⟨htime, hold⟩ := h.testedOld q n time todo' hq
        refine ⟨htime, fun f hf hheld hsince => ?_⟩
        by_cases hn : n = name
        · -- the new claim is not older than any test
          subst hn
          obtain rfl : _ = f := by simpa using hf
          exact absurd hsince (not_lt.2 htime)
        · refine hold f (by simpa [Function.update_of_ne hn] using hf) ?_ hsince
          obtain ⟨r, hr, hclaim⟩ := hheld
          refine ⟨r, hr, ?_⟩
          by_cases hrp : r = p
          · subst hrp
            simp only [goto_stage_self, ArchiverStage.claim?, Option.some.injEq,
              Prod.mk.injEq] at hclaim
            exact absurd hclaim.1.symm hn
          · simpa only [goto_stage_of_ne hrp] using hclaim
  · exact h.goto (.inl rfl) (by simp)

/-- A run that is through with a claim may take its file, or an old one. -/
theorem takeable_goto {since : ℚ} (hl : l.claim? = none)
    (hown : ∀ f ∈ s.claimed name, s.Held name f →
      (f.claimant = some p ∧ f.since = since) ∨ f.since + recoveryAge ≤ s.now) :
    (s.goto p l).Takeable name := by
  intro f hf hheld
  obtain ⟨hp, -⟩ | hold := hown f hf (hheld.of_goto (.inl hl))
  · obtain ⟨q, hq, hclaim⟩ := hheld
    obtain rfl := Option.some.inj (hp.symm.trans hq)
    rw [goto_stage_self, hl] at hclaim
    cases hclaim
  · exact hold

theorem Inv.release {since : ℚ} {todo : List ℕ} (h : s.Inv)
    (hp : s.stage p = .releasing name since todo)
    (hown : ∀ f ∈ s.claimed name, s.Held name f →
      (f.claimant = some p ∧ f.since = since) ∨ f.since + recoveryAge ≤ s.now) :
    (s.release p name since todo).Inv := by
  have hnext : (s.goto p (.claiming todo)).Inv := h.goto (.inl rfl) (by simp)
  unfold PendingDir.release
  split
  · exact hnext.clear (takeable_goto rfl hown) s.sealed
  · exact h.goto (.inr (by rw [hp]; rfl)) (by simp)

theorem Inv.advance {fails : Bool} (h : s.Inv) (ha : s.Orderly (.move p fails)) :
    (s.advance p fails).Inv := by
  unfold PendingDir.advance
  cases hp : s.stage p with
  | idle => exact h
  | recovering todo =>
      cases todo with
      | nil => exact h
      | cons name todo => exact h.goto (.inl rfl) (by simp)
  | clocked name clock todo =>
      cases fails with
      | true => exact h.goto (.inl rfl) (by simp)
      | false =>
          simp only [PendingDir.Orderly, hp] at ha
          exact h.testAge ha
  | tested name time todo =>
      cases fails with
      | true => exact h.goto (.inl rfl) (by simp)
      | false =>
          simp only [PendingDir.Orderly, hp] at ha
          obtain ⟨htime, hold⟩ := h.testedOld p name time todo hp
          have hnext : (s.goto p (.recovering todo)).Inv := h.goto (.inl rfl) (by simp)
          dsimp only
          rw [if_neg Bool.false_ne_true, giveBack_goto]
          refine hnext.giveBack fun hsealed f hf hheld => ?_
          have hheld := hheld.of_goto (.inl rfl)
          exact (hold f hf hheld (ha hsealed f hf hheld)).trans htime
  | claiming todo =>
      cases todo with
      | nil => exact h.goto (.inl rfl) (by simp)
      | cons name todo =>
          cases fails with
          | true => exact h.goto (.inl rfl) (by simp)
          | false => exact h.claim
  | working name since todo =>
      cases fails with
      | true => exact h.goto (.inr (by rw [hp]; rfl)) (by simp)
      | false => exact h.goto (.inr (by rw [hp]; rfl)) (by simp)
  | releasing name since todo =>
      cases fails with
      | true => exact h.goto (.inr (by rw [hp]; rfl)) (by simp)
      | false =>
          simp only [PendingDir.Orderly, hp] at ha
          exact h.release hp ha
  | failing name since todo =>
      have hnext : (s.goto p (.claiming todo)).Inv := h.goto (.inl rfl) (by simp)
      cases fails with
      | true => exact hnext
      | false =>
          dsimp only
          rw [if_neg Bool.false_ne_true, giveBack_goto]
          cases since with
          | none =>
              simp only [PendingDir.Orderly, hp] at ha
              exact hnext.giveBack fun hsealed f hf hheld =>
                ha hsealed f hf (hheld.of_goto (.inl rfl))
          | some since =>
              simp only [PendingDir.Orderly, hp] at ha
              exact hnext.giveBack fun hsealed => takeable_goto rfl (ha hsealed)
  | crashed => exact h

omit [DecidableEq ι] in
theorem Inv.tick {d : ℚ} (h : s.Inv) (hd : 0 ≤ d) :
    ({ s with now := s.now + d } : PendingDir ι).Inv := by
  constructor
  · intro q name since hq hyoung
    exact h.exclusive q name since hq ((le_add_of_nonneg_right hd).trans_lt hyoung)
  · intro q name time todo hq
    obtain ⟨htime, hold⟩ := h.testedOld q name time todo hq
    exact ⟨htime.trans (le_add_of_nonneg_right hd), hold⟩

theorem Inv.perform {a : ArchiverOperation ι} (h : s.Inv) (hadmissible : s.Admissible a)
    (ha : s.Orderly a) : (s.perform a).Inv := by
  cases a with
  | start p interrupted =>
      simp only [PendingDir.perform]
      split
      · exact h.goto (.inl rfl) (by simp)
      · exact h
  | list p pending =>
      simp only [PendingDir.perform]
      split
      · exact h.goto (.inl rfl) (by simp)
      · exact h
  | move p fails => exact h.advance ha
  | crash p => exact h.goto (.inl rfl) (by simp)
  | produce name mtime => exact ⟨h.exclusive, h.testedOld⟩
  | tick d => exact h.tick hadmissible

end PendingDir

variable {ι : Type*} [DecidableEq ι] {s : PendingDir ι}

/-- Where every operation is orderly, no run takes the young claim of another. -/
theorem young_claims_are_kept (hs : (orderlyArchivers ι).Reachable s) : s.Exclusive := by
  have hinv : s.Inv := by
    refine hs.invariant (fun s hidle => ?_) fun s a _ h ha => h.perform ha.1 ha.2
    have hstage : ∀ p, s.stage p = .idle := hidle
    constructor
    · intro p name since hp
      rw [hstage p] at hp
      cases hp
    · intro p name time todo hp
      rw [hstage p] at hp
      cases hp
  exact hinv.exclusive

/-! ## A segment that waited -/

/-- Two runs, and one segment that was sealed 400 seconds ago. -/
def waitingSegment : PendingDir (Fin 2) :=
  ⟨1000, fun name => if name = 7 then some 600 else none, fun _ => none, fun _ => .idle⟩

/-- The first run crashes behind its claim; the second gives the claim back and makes its own. -/
def recoveredCrash : List (ArchiverOperation (Fin 2)) :=
  [.start 0 [], .list 0 [7], .move 0 false, .crash 0, .start 1 [7], .move 1 false, .move 1 false,
    .move 1 false, .list 1 [7], .move 1 false, .tick 200]

theorem young_claims_are_kept_recoveredCrash :
    ((orderlyArchivers (Fin 2)).run waitingSegment recoveredCrash).Exclusive := by
  have hruns : (orderlyArchivers (Fin 2)).Runs waitingSegment recoveredCrash := by decide +kernel
  exact young_claims_are_kept (Machine.reachable_run recoveredCrash (fun _ => rfl) hruns)

/-- The first run claims the segment, and the second one looks for old claims. -/
def stolenAtOnce : List (ArchiverOperation (Fin 2)) :=
  [.start 0 [], .list 0 [7], .move 0 false, .start 1 [7], .move 1 false, .move 1 false,
    .move 1 false]

/-- The second run gives the claim of the first back in the second in which it was made. -/
theorem waiting_segment_is_stolen :
    ∃ s : PendingDir (Fin 2), (archivers (Fin 2)).Reachable s ∧
      s.stage 0 = .working 7 1000 [] ∧ s.now = 1000 ∧ s.claimed 7 = none ∧
        s.sealed 7 = some 600 ∧ ¬s.Exclusive := by
  have hruns : (archivers (Fin 2)).Runs waitingSegment stolenAtOnce := by decide +kernel
  refine ⟨_, Machine.reachable_run stolenAtOnce (fun _ => rfl) hruns, by decide +kernel,
    by decide +kernel, by decide +kernel, by decide +kernel, fun h => ?_⟩
  obtain ⟨mtime, hclaimed⟩ := h 0 7 1000 (by decide +kernel) (by decide +kernel)
  have hnone : ((archivers (Fin 2)).run waitingSegment stolenAtOnce).claimed 7 = none := by
    decide +kernel
  rw [hnone] at hclaimed
  cases hclaimed

end ResearchLab.RuntimeStorage
