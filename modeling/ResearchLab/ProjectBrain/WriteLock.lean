import Mathlib
import ResearchLab.Foundation.Machine

/-!
# The project brain write lock

`_exclusive_file_lock` creates a file exclusively, removes one that is older than
`stale_seconds`, and unlinks the path when the critical section ends. The processes move one
file operation at a time, in any order, and may crash anywhere; a file operation may be denied.
A file is told from a later one at the same path by the number of its creation.
-/
namespace ResearchLab.ProjectBrain

open Foundation

structure LockFile (ι : Type*) where
  creator : ι
  serial : ℕ
  mtime : ℚ
  deriving DecidableEq

/-- The line of `_exclusive_file_lock` a process is at. -/
inductive Stage
  | outside
  | opening (deadline : ℚ)
  | writing (serial : ℕ)
  | contended (deadline : ℚ)
  | measuring (deadline clock : ℚ)
  | removing (deadline : ℚ)
  | waiting (deadline : ℚ)
  | inside (serial : ℕ) (since : ℚ)
  | leaving (serial : ℕ)
  | crashed
  deriving DecidableEq

/-- The file a process has created and not yet tried to unlink. -/
def Stage.held? : Stage → Option ℕ
  | writing n | inside n _ | leaving n => some n
  | _ => none

/-- When a process entered the critical section it is in. -/
def Stage.since? : Stage → Option ℚ
  | inside _ since => some since
  | _ => none

/-- The process read an age above `stale_seconds` and is about to unlink. -/
def Stage.isRemoving : Stage → Bool
  | removing _ => true
  | _ => false

structure WriteLock (ι : Type*) where
  now : ℚ
  file : Option (LockFile ι)
  created : ℕ
  stage : ι → Stage

inductive Operation (ι : Type*)
  | move (p : ι) (denied : Bool)
  | crash (p : ι)
  | tick (d : ℚ)

namespace WriteLock

variable {ι : Type*} [DecidableEq ι] {timeoutSeconds staleSeconds : ℚ}

def goto (s : WriteLock ι) (p : ι) (l : Stage) : WriteLock ι :=
  { s with stage := Function.update s.stage p l }

/-- `os.open(path, os.O_CREAT | os.O_EXCL | os.O_WRONLY)`. -/
def create (s : WriteLock ι) (p : ι) (deadline : ℚ) : WriteLock ι :=
  if s.file.isSome then s.goto p (.contended deadline)
  else { s.goto p (.writing s.created) with
    file := some ⟨p, s.created, s.now⟩
    created := s.created + 1 }

/-- `os.write` touches the file of the descriptor, which may have left the path. -/
def touch (s : WriteLock ι) (n : ℕ) : Option (LockFile ι) :=
  s.file.map fun f => if f.serial = n then { f with mtime := s.now } else f

/-- `time.time() - path.stat().st_mtime > stale_seconds`, with the clock read first. -/
def Stale (staleSeconds clock : ℚ) (f : LockFile ι) : Prop :=
  staleSeconds < clock - f.mtime

instance staleDecidable (staleSeconds clock : ℚ) (f : LockFile ι) :
    Decidable (Stale staleSeconds clock f) :=
  inferInstanceAs (Decidable (_ < _))

def stat (staleSeconds : ℚ) (s : WriteLock ι) (p : ι) (deadline clock : ℚ) : WriteLock ι :=
  if ∃ f ∈ s.file, Stale staleSeconds clock f then s.goto p (.removing deadline)
  else s.goto p (.waiting deadline)

/-- The next operation of one process; `denied` is a `PermissionError` of a file operation. -/
def advance (timeoutSeconds staleSeconds : ℚ) (s : WriteLock ι) (p : ι) (denied : Bool) :
    WriteLock ι :=
  match s.stage p with
  | .outside => s.goto p (.opening (s.now + timeoutSeconds))
  | .opening deadline => if denied then s.goto p (.contended deadline) else s.create p deadline
  | .writing n => { s.goto p (.inside n s.now) with file := s.touch n }
  | .contended deadline => s.goto p (.measuring deadline s.now)
  | .measuring deadline clock =>
    if denied then s.goto p (.waiting deadline) else s.stat staleSeconds p deadline clock
  | .removing deadline =>
    if denied then s.goto p (.waiting deadline)
    else { s.goto p (.opening deadline) with file := none }
  | .waiting deadline =>
    if deadline ≤ s.now then s.goto p .outside else s.goto p (.opening deadline)
  | .inside n _ => s.goto p (.leaving n)
  | .leaving _ =>
    if denied then s.goto p .outside else { s.goto p .outside with file := none }
  | .crashed => s

def perform (timeoutSeconds staleSeconds : ℚ) (s : WriteLock ι) : Operation ι → WriteLock ι
  | .move p denied => s.advance timeoutSeconds staleSeconds p denied
  | .crash p => s.goto p .crashed
  | .tick d => { s with now := s.now + d }

/-- Every live holder leaves its critical section within `stale_seconds` of entering it. -/
def Prompt (staleSeconds : ℚ) (s : WriteLock ι) : Prop :=
  ∀ p, ∀ since ∈ (s.stage p).since?, s.now ≤ since + staleSeconds

/-- No file at the path is stale while a process still has to unlink the one it created. -/
def Fresh (staleSeconds : ℚ) (s : WriteLock ι) : Prop :=
  ∀ p, (s.stage p).held?.isSome → ∀ f ∈ s.file, ¬ Stale staleSeconds s.now f

/-- A waiter's unlink finds a stale file or none. -/
def FindsStale (staleSeconds : ℚ) (s : WriteLock ι) : Operation ι → Prop
  | .move p denied => (s.stage p).isRemoving → denied = false →
      ∀ f ∈ s.file, Stale staleSeconds s.now f
  | _ => True

/-- Time does not go back. -/
def Forward : Operation ι → Prop
  | .tick d => 0 ≤ d
  | _ => True

section Decidable

variable [Fintype ι] (s : WriteLock ι) (a : Operation ι)

instance promptDecidable : Decidable (s.Prompt staleSeconds) := by
  unfold Prompt
  infer_instance

instance freshDecidable : Decidable (s.Fresh staleSeconds) := by
  unfold Fresh
  infer_instance

instance findsStaleDecidable : Decidable (s.FindsStale staleSeconds a) := by
  cases a <;> unfold FindsStale <;> infer_instance

instance forwardDecidable : Decidable (Forward a) := by
  cases a <;> unfold Forward <;> infer_instance

end Decidable

end WriteLock

open WriteLock

variable {ι : Type*} [DecidableEq ι]

/-- All interleavings of the file operations in which every live holder is prompt. -/
def writeLock (ι : Type*) [DecidableEq ι] (timeoutSeconds staleSeconds : ℚ) :
    Machine (WriteLock ι) (Operation ι) where
  init s := s.file = none ∧ ∀ p, s.stage p = .outside
  enabled s a := Forward a ∧
    (s.perform timeoutSeconds staleSeconds a).Prompt staleSeconds
  step := WriteLock.perform timeoutSeconds staleSeconds

/-- The runs in which, moreover, a waiter unlinks a stale file only and no holder's file gets
stale before its own release. -/
def guardedLock (ι : Type*) [DecidableEq ι] (timeoutSeconds staleSeconds : ℚ) :
    Machine (WriteLock ι) (Operation ι) where
  init := (writeLock ι timeoutSeconds staleSeconds).init
  enabled s a := (writeLock ι timeoutSeconds staleSeconds).enabled s a ∧
    s.FindsStale staleSeconds a ∧
    (s.perform timeoutSeconds staleSeconds a).Fresh staleSeconds
  step := (writeLock ι timeoutSeconds staleSeconds).step

section Decidable

variable [Fintype ι] {timeoutSeconds staleSeconds : ℚ} (s : WriteLock ι) (a : Operation ι)

instance writeLockDecidable :
    Decidable ((writeLock ι timeoutSeconds staleSeconds).enabled s a) :=
  inferInstanceAs (Decidable (_ ∧ _))

instance guardedLockDecidable :
    Decidable ((guardedLock ι timeoutSeconds staleSeconds).enabled s a) :=
  inferInstanceAs (Decidable ((writeLock ι timeoutSeconds staleSeconds).enabled s a ∧ _ ∧ _))

end Decidable

namespace WriteLock

/-- The file of a holder is the one at the path. -/
def Owned (s : WriteLock ι) : Prop :=
  ∀ p n, (s.stage p).held? = some n → ∃ f, s.file = some f ∧ f.creator = p ∧ f.serial = n

section Steps

variable {s : WriteLock ι} {p q : ι} {n : ℕ} {l : Stage}

@[simp] theorem goto_file : (s.goto p l).file = s.file := rfl

@[simp] theorem goto_stage : (s.goto p l).stage = Function.update s.stage p l := rfl

/-- A holder after a process moved to a line without a file was one before. -/
theorem held_of_goto (hl : l.held? = none)
    (h : (Function.update s.stage p l q).held? = some n) :
    q ≠ p ∧ (s.stage q).held? = some n := by
  by_cases hq : q = p
  · subst hq
    rw [Function.update_self, hl] at h
    simp at h
  · rw [Function.update_of_ne hq] at h
    exact ⟨hq, h⟩

omit [DecidableEq ι] in
/-- Two holders are one process, since the path has one file. -/
theorem Owned.unique {s : WriteLock ι} (h : s.Owned) {m : ℕ}
    (hp : (s.stage p).held? = some n) (hq : (s.stage q).held? = some m) : p = q := by
  obtain ⟨f, hf, rfl, _⟩ := h p n hp
  obtain ⟨g, hg, rfl, _⟩ := h q m hq
  rw [hf] at hg
  rw [Option.some.inj hg]

theorem Owned.goto (h : s.Owned) (hl : l.held? = none) : (s.goto p l).Owned :=
  fun q m hq => h q m (held_of_goto hl hq).2

/-- A line change that keeps the file keeps its owner. -/
theorem Owned.keep (h : s.Owned) (hp : (s.stage p).held? = some n) (hl : l.held? = some n) :
    (s.goto p l).Owned := by
  intro q m hq
  by_cases hqp : q = p
  · subst hqp
    rw [goto_stage, Function.update_self, hl] at hq
    exact h q m (hp.trans hq)
  · rw [goto_stage, Function.update_of_ne hqp] at hq
    exact h q m hq

/-- The path may be cleared when the moving process is the only one that could hold it. -/
theorem Owned.clear (hl : l.held? = none)
    (halone : ∀ q m, (s.stage q).held? = some m → q = p) :
    ({ s.goto p l with file := none } : WriteLock ι).Owned := by
  intro q m hq
  obtain ⟨hne, hq⟩ := held_of_goto hl hq
  exact absurd (halone q m hq) hne

theorem Owned.create (h : s.Owned) (deadline : ℚ) : (s.create p deadline).Owned := by
  unfold WriteLock.create
  by_cases hf : s.file.isSome
  · rw [if_pos hf]
    exact h.goto rfl
  · rw [if_neg hf]
    intro q m hq
    by_cases hqp : q = p
    · subst hqp
      simp only [goto_stage, Function.update_self, Stage.held?, Option.some.injEq] at hq
      exact ⟨_, rfl, rfl, hq⟩
    · -- without a file at the path nobody held one
      simp only [goto_stage, Function.update_of_ne hqp] at hq
      obtain ⟨f, hf', _⟩ := h q m hq
      simp [hf'] at hf

omit [DecidableEq ι] in
theorem Owned.touch (h : s.Owned) (n : ℕ) :
    ({ s with file := s.touch n } : WriteLock ι).Owned := by
  intro q m hq
  obtain ⟨f, hf, rfl, rfl⟩ := h q m hq
  refine ⟨if f.serial = n then { f with mtime := s.now } else f, ?_, ?_, ?_⟩
  · simp [WriteLock.touch, hf]
  · split <;> rfl
  · split <;> rfl

end Steps

variable {timeoutSeconds staleSeconds : ℚ} {s : WriteLock ι} {p q : ι}

theorem Owned.advance (h : s.Owned) (hfresh : s.Fresh staleSeconds) {denied : Bool}
    (hfinds : s.FindsStale staleSeconds (.move p denied)) :
    (s.advance timeoutSeconds staleSeconds p denied).Owned := by
  unfold WriteLock.advance
  cases hp : s.stage p with
  | outside => exact h.goto rfl
  | opening deadline =>
    cases denied
    · exact h.create deadline
    · exact h.goto rfl
  | writing n =>
    have hheld : (s.stage p).held? = some n := by rw [hp]; rfl
    exact (h.touch n).keep (l := .inside n s.now) hheld rfl
  | contended deadline => exact h.goto rfl
  | measuring deadline clock =>
    cases denied
    · simp only [Bool.false_eq_true, if_false, WriteLock.stat]
      split
      · exact h.goto rfl
      · exact h.goto rfl
    · exact h.goto rfl
  | removing deadline =>
    cases denied
    · apply Owned.clear rfl
      intro q m hq
      -- the file of a holder is fresh, and the one the waiter finds is not
      obtain ⟨f, hf, _, _⟩ := h q m hq
      have hstale := hfinds (by rw [hp]; rfl) rfl f hf
      exact absurd hstale (hfresh q (by rw [hq]; rfl) f hf)
    · exact h.goto rfl
  | waiting deadline =>
    simp only
    split
    · exact h.goto rfl
    · exact h.goto rfl
  | inside n since => exact h.keep (n := n) (by rw [hp]; rfl) rfl
  | leaving n =>
    cases denied
    · apply Owned.clear rfl
      intro q m hq
      exact h.unique hq (n := m) (m := n) (by rw [hp]; rfl)
    · exact h.goto rfl
  | crashed => exact h

theorem Owned.perform (h : s.Owned) (hfresh : s.Fresh staleSeconds) {a : Operation ι}
    (hfinds : s.FindsStale staleSeconds a) :
    (s.perform timeoutSeconds staleSeconds a).Owned := by
  cases a with
  | move p denied => exact h.advance hfresh hfinds
  | crash p => exact h.goto rfl
  | tick d => exact h

end WriteLock

variable {timeoutSeconds staleSeconds : ℚ} {s : WriteLock ι}

theorem guardedLock_invariant (hs : (guardedLock ι timeoutSeconds staleSeconds).Reachable s) :
    s.Owned ∧ s.Fresh staleSeconds := by
  apply hs.invariant (P := fun s => s.Owned ∧ s.Fresh staleSeconds)
  · rintro s ⟨_, hout⟩
    constructor
    · intro p n hp
      simp [hout p, Stage.held?] at hp
    · intro p hp
      simp [hout p, Stage.held?] at hp
  · intro s a _ h ha
    obtain ⟨_, hfinds, hfresh⟩ := ha
    exact ⟨h.1.perform h.2 hfinds, hfresh⟩

/-- At most one process is inside, and the file a release unlinks is its own. -/
def WriteLock.Excludes (s : WriteLock ι) : Prop :=
  (∀ p q, (s.stage p).since?.isSome → (s.stage q).since?.isSome → p = q) ∧
    ∀ p n, s.stage p = .leaving n → ∀ f ∈ s.file, f.creator = p

/-- A process inside holds the file it entered with. -/
theorem Stage.held_of_since {l : Stage} (h : l.since?.isSome) : ∃ n, l.held? = some n := by
  cases l with
  | inside n since => exact ⟨n, rfl⟩
  | _ => simp [Stage.since?] at h

theorem write_lock_excludes (hs : (guardedLock ι timeoutSeconds staleSeconds).Reachable s) :
    s.Excludes := by
  obtain ⟨howned, _⟩ := guardedLock_invariant hs
  constructor
  · intro p q hp hq
    obtain ⟨m, hm⟩ := Stage.held_of_since hp
    obtain ⟨n, hn⟩ := Stage.held_of_since hq
    exact howned.unique hm hn
  · intro p n hp f hf
    obtain ⟨g, hg, hcreator, _⟩ := howned p n (by rw [hp]; rfl)
    rw [Option.mem_def, hg] at hf
    rw [← Option.some.inj hf]
    exact hcreator

/-- Three processes outside and no file at the path. -/
def freePath : WriteLock (Fin 3) := ⟨0, none, 0, fun _ => .outside⟩

def moves (p : Fin 3) (n : ℕ) : List (Operation (Fin 3)) := List.replicate n (.move p false)

/-- A holder crashes inside, and the file it left gets stale. -/
def abandoned : List (Operation (Fin 3)) := moves 0 3 ++ [.crash 0, .tick 31]

/-- A waiter takes the place of the crashed holder and releases. -/
def takenOver : List (Operation (Fin 3)) := abandoned ++ moves 1 8 ++ moves 1 1

theorem write_lock_excludes_taken_over :
    ((guardedLock (Fin 3) 2 30).run freePath takenOver).Excludes := by
  have hruns : (guardedLock (Fin 3) 2 30).Runs freePath takenOver := by decide +kernel
  exact write_lock_excludes (Machine.reachable_run takenOver ⟨rfl, fun _ => rfl⟩ hruns)

/-- Two waiters read the age of the crashed holder's file; the first unlinks it and enters, and
the second unlinks the file of the first and enters too. -/
def bothRemove : List (Operation (Fin 3)) :=
  abandoned ++ moves 1 4 ++ moves 2 4 ++ moves 1 3 ++ moves 2 3

/-- Both waiters are inside, and the first one's release would unlink the other's file. -/
theorem both_waiters_inside :
    ∃ s : WriteLock (Fin 3), (writeLock (Fin 3) 2 30).Reachable s ∧
      s.stage 1 = .inside 1 31 ∧ s.stage 2 = .inside 2 31 ∧
      s.file.map LockFile.creator = some 2 ∧ ¬ s.Excludes := by
  have hruns : (writeLock (Fin 3) 2 30).Runs freePath bothRemove := by decide +kernel
  refine ⟨_, Machine.reachable_run bothRemove ⟨rfl, fun _ => rfl⟩ hruns, ?_, ?_, ?_, ?_⟩
  · decide +kernel
  · decide +kernel
  · decide +kernel
  · intro h
    exact absurd (h.1 1 2 (by decide +kernel) (by decide +kernel)) (by decide)

end ResearchLab.ProjectBrain
