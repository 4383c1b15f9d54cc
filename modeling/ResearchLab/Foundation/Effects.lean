import Mathlib.Logic.Function.Basic
import Mathlib.Data.List.Basic

/-!
# Programs that can stop anywhere

A program is a tree of effects. A device answers each effect out of its own state and of a
choice that nobody controls. `wp` is the condition under which a program ends as it should and
leaves, after every single effect, a state that a crash may hand to the next process.
Processes that run such programs behind one lock keep what each program keeps.
-/
namespace ResearchLab.Foundation

universe u v w

/-- Programs with effects in `ε`, answered in `ρ`, that may raise a `ξ`. -/
inductive Prog (ε : Type u) (ρ : ε → Type u) (ξ : Type u) (α : Type u) : Type u
  | ret (a : α)
  | raise (x : ξ)
  | act (e : ε) (next : ρ e → Prog ε ρ ξ α)

/-- What answers the effects: the answer, and the state behind it. -/
structure Device (ε : Type u) (ρ : ε → Type u) (χ : Type v) (σ : Type w) where
  respond : (e : ε) → χ → σ → ρ e × σ

namespace Prog

variable {ε : Type u} {ρ : ε → Type u} {ξ : Type u} {α β : Type u}

def bind : Prog ε ρ ξ α → (α → Prog ε ρ ξ β) → Prog ε ρ ξ β
  | .ret a, f => f a
  | .raise x, _ => .raise x
  | .act e next, f => .act e fun r => (next r).bind f

instance monad : Monad (Prog ε ρ ξ) where
  pure := .ret
  bind := .bind

/-- `try: ... except`. -/
def catching : Prog ε ρ ξ α → (ξ → Prog ε ρ ξ α) → Prog ε ρ ξ α
  | .ret a, _ => .ret a
  | .raise x, handler => handler x
  | .act e next, handler => .act e fun r => (next r).catching handler

/-- One effect. -/
def perform (e : ε) : Prog ε ρ ξ (ρ e) := .act e .ret

/-- `raise` where an answer is an error. -/
def ofExcept : Except ξ α → Prog ε ρ ξ α
  | .ok a => .ret a
  | .error x => .raise x

/-- A loop that carries a value. -/
def forEach {ι : Type v} (body : α → ι → Prog ε ρ ξ α) : α → List ι → Prog ε ρ ξ α
  | a, [] => .ret a
  | a, i :: is => (body a i).bind fun a' => forEach body a' is

/-! ## Preconditions -/

variable {χ : Type v} {σ : Type w} {dev : Device ε ρ χ σ} {I : σ → Prop}
  {Q Q' : α → σ → Prop} {E E' : ξ → σ → Prop} {s : σ}

/-- Every effect leaves a state with `I`; a value is returned with `Q` and an error raised
with `E`. -/
def wp (dev : Device ε ρ χ σ) (I : σ → Prop) (Q : α → σ → Prop) (E : ξ → σ → Prop) :
    Prog ε ρ ξ α → σ → Prop
  | .ret a, s => Q a s
  | .raise x, s => E x s
  | .act e next, s => ∀ c : χ, I (dev.respond e c s).2 ∧
      wp dev I Q E (next (dev.respond e c s).1) (dev.respond e c s).2

@[simp] theorem wp_ret (a : α) : wp dev I Q E (.ret a) s ↔ Q a s := Iff.rfl

@[simp] theorem wp_pure (a : α) : wp dev I Q E (pure a) s ↔ Q a s := Iff.rfl

@[simp] theorem wp_raise (x : ξ) : wp dev I Q E (.raise x) s ↔ E x s := Iff.rfl

theorem wp_perform (e : ε) {Q : ρ e → σ → Prop} :
    wp dev I Q E (perform e) s ↔
      ∀ c : χ, I (dev.respond e c s).2 ∧ Q (dev.respond e c s).1 (dev.respond e c s).2 := Iff.rfl

theorem wp_ofExcept (r : Except ξ α) :
    wp dev I Q E (ofExcept r) s ↔ (∀ a, r = .ok a → Q a s) ∧ ∀ x, r = .error x → E x s := by
  cases r <;> simp [ofExcept]

theorem wp_mono {p : Prog ε ρ ξ α} (hQ : ∀ a s, Q a s → Q' a s) (hE : ∀ x s, E x s → E' x s)
    (h : wp dev I Q E p s) : wp dev I Q' E' p s := by
  induction p generalizing s with
  | ret a => exact hQ a s h
  | raise x => exact hE x s h
  | act e next ih => exact fun c => ⟨(h c).1, ih _ (h c).2⟩

theorem wp_bind {p : Prog ε ρ ξ α} {f : α → Prog ε ρ ξ β} {Q : β → σ → Prop}
    (h : wp dev I (fun a => wp dev I Q E (f a)) E p s) : wp dev I Q E (p.bind f) s := by
  induction p generalizing s with
  | ret a => exact h
  | raise x => exact h
  | act e next ih => exact fun c => ⟨(h c).1, ih _ (h c).2⟩

/-- What a program ends with, its rest begins with. -/
theorem wp_of_bind {p : Prog ε ρ ξ α} {f : α → Prog ε ρ ξ β} {Q : β → σ → Prop}
    (h : wp dev I Q E (p.bind f) s) : wp dev I (fun a => wp dev I Q E (f a)) E p s := by
  induction p generalizing s with
  | ret a => exact h
  | raise x => exact h
  | act e next ih => exact fun c => ⟨(h c).1, ih _ (h c).2⟩

/-- The same for a step of `do`. -/
theorem wp_seq {p : Prog ε ρ ξ α} {f : α → Prog ε ρ ξ β} {Q : β → σ → Prop}
    (h : wp dev I (fun a => wp dev I Q E (f a)) E p s) : wp dev I Q E (p >>= f) s := wp_bind h

theorem wp_catching {p : Prog ε ρ ξ α} {handler : ξ → Prog ε ρ ξ α}
    (h : wp dev I Q (fun x => wp dev I Q E (handler x)) p s) :
    wp dev I Q E (p.catching handler) s := by
  induction p generalizing s with
  | ret a => exact h
  | raise x => exact h
  | act e next ih => exact fun c => ⟨(h c).1, ih _ (h c).2⟩

/-- The loop rule: what the body keeps holds after the loop. -/
theorem wp_forEach {ι : Type v} {body : α → ι → Prog ε ρ ξ α} {is : List ι}
    (hbody : ∀ a s, ∀ i ∈ is, Q a s → wp dev I Q E (body a i) s) {a : α} (h : Q a s) :
    wp dev I Q E (forEach body a is) s := by
  induction is generalizing a s with
  | nil => exact h
  | cons i is ih =>
      refine wp_bind (wp_mono (fun a' s' hQ => ?_) (fun _ _ => id)
        (hbody a s i (List.mem_cons_self ..) h))
      exact ih (fun a s j hj => hbody a s j (List.mem_cons_of_mem _ hj)) hQ

/-- The loop rule with the items that are left. -/
theorem wp_forEach_rest {ι : Type v} {body : α → ι → Prog ε ρ ξ α} {Q : List ι → α → σ → Prop}
    (hbody : ∀ i rest a s, Q (i :: rest) a s → wp dev I (Q rest) E (body a i) s) {is : List ι}
    {a : α} (h : Q is a s) : wp dev I (Q []) E (forEach body a is) s := by
  induction is generalizing a s with
  | nil => exact h
  | cons i is ih =>
      exact wp_bind (wp_mono (fun _ _ hQ => ih hQ) (fun _ _ => id) (hbody i is a s h))

end Prog

/-! ## Processes behind one lock -/

/-- A process waits for the lock with its job, or holds it with the rest of its program. -/
inductive Stage (ε : Type u) (ρ : ε → Type u) (ξ : Type u) (ι : Type v)
  | outside (job : ι)
  | inside (rest : Prog ε ρ ξ PUnit.{u + 1})

/-- What the processes share, the process that holds the lock, and where each process is. -/
structure Crew (ε : Type u) (ρ : ε → Type u) (ξ : Type u) (ι : Type v) (π : Type v)
    (σ : Type w) where
  shared : σ
  holder : Option π
  stage : π → Option (Stage ε ρ ξ ι)

/-- A process arrives, asks for the lock, performs its next effect, gives the lock back after
its last one, or dies wherever it is. -/
inductive Move (ι : Type v) (π : Type v) (χ : Type v)
  | arrive (p : π) (job : ι)
  | acquire (p : π)
  | act (p : π) (choice : χ)
  | leave (p : π)
  | crash (p : π)

namespace Crew

variable {ε : Type u} {ρ : ε → Type u} {ξ : Type u} {ι π χ : Type v} {σ : Type w}
  [DecidableEq π]

/-- Nobody has arrived. -/
def start (s : σ) : Crew ε ρ ξ ι π σ := ⟨s, none, fun _ => none⟩

def goto (w : Crew ε ρ ξ ι π σ) (p : π) (stage : Option (Stage ε ρ ξ ι)) :
    Crew ε ρ ξ ι π σ := { w with stage := Function.update w.stage p stage }

/-- The process is gone, and with it its hold on the lock. -/
def gone (w : Crew ε ρ ξ ι π σ) (p : π) : Crew ε ρ ξ ι π σ :=
  { w.goto p none with holder := if w.holder = some p then none else w.holder }

/-- One move; a move that its process cannot make changes nothing. -/
def step (dev : Device ε ρ χ σ) (body : ι → Prog ε ρ ξ PUnit.{u + 1})
    (w : Crew ε ρ ξ ι π σ) : Move ι π χ → Crew ε ρ ξ ι π σ
  | .arrive p job => if (w.stage p).isNone then w.goto p (some (.outside job)) else w
  | .acquire p =>
      match w.stage p, w.holder with
      | some (.outside job), none => { w.goto p (some (.inside (body job))) with holder := some p }
      | some (.outside _), some _ => w.gone p
      | _, _ => w
  | .act p c =>
      match w.stage p with
      | some (.inside (.act e next)) =>
          { w.goto p (some (.inside (next (dev.respond e c w.shared).1))) with
            shared := (dev.respond e c w.shared).2 }
      | _ => w
  | .leave p =>
      match w.stage p with
      | some (.inside (.ret _)) => w.gone p
      | some (.inside (.raise _)) => w.gone p
      | _ => w
  | .crash p => w.gone p

def run (dev : Device ε ρ χ σ) (body : ι → Prog ε ρ ξ PUnit.{u + 1}) :
    Crew ε ρ ξ ι π σ → List (Move ι π χ) → Crew ε ρ ξ ι π σ := List.foldl (step dev body)

/-- The holder of the lock is the only process inside, and the rest of its program keeps the
invariant from here. -/
structure Safe (dev : Device ε ρ χ σ) (I : σ → Prop) (w : Crew ε ρ ξ ι π σ) : Prop where
  shared : I w.shared
  inside : ∀ p rest, w.stage p = some (.inside rest) →
    w.holder = some p ∧ rest.wp dev I (fun _ _ => True) (fun _ _ => True) w.shared

variable {dev : Device ε ρ χ σ} {body : ι → Prog ε ρ ξ PUnit.{u + 1}} {I : σ → Prop}
  {w : Crew ε ρ ξ ι π σ}

theorem Safe.gone (h : Safe dev I w) (p : π) : Safe dev I (w.gone p) := by
  refine ⟨h.shared, fun q rest hq => ?_⟩
  rcases eq_or_ne q p with rfl | hne
  · simp [Crew.gone, goto] at hq
  · have hq : w.stage q = some (.inside rest) := by simpa [Crew.gone, goto, hne] using hq
    obtain ⟨hholder, hrest⟩ := h.inside q rest hq
    refine ⟨?_, hrest⟩
    simp [Crew.gone, goto, hholder, hne]

/-- The process that asks for the lock is given it, with this job. -/
def Admits (w : Crew ε ρ ξ ι π σ) (m : Move ι π χ) (job : ι) : Prop :=
  ∃ p, m = .acquire p ∧ w.stage p = some (.outside job) ∧ w.holder = none

theorem Safe.step (h : Safe dev I w) (m : Move ι π χ) (hbody : ∀ job, w.Admits m job →
    (body job).wp dev I (fun _ _ => True) (fun _ _ => True) w.shared) :
    Safe dev I (step dev body w m) := by
  cases m with
  | arrive p job =>
      simp only [Crew.step]
      split
      · refine ⟨h.shared, fun q rest hq => ?_⟩
        rcases eq_or_ne q p with rfl | hne
        · simp [goto] at hq
        · exact h.inside q rest (by simpa [goto, hne] using hq)
      · exact h
  | acquire p =>
      simp only [Crew.step]
      split
      next job hp hfree =>
        refine ⟨h.shared, fun q rest hq => ?_⟩
        rcases eq_or_ne q p with rfl | hne
        · obtain rfl : body job = rest := by simpa [goto] using hq
          exact ⟨rfl, hbody job ⟨_, rfl, hp, hfree⟩⟩
        · have hq := (h.inside q rest (by simpa [goto, hne] using hq)).1
          simp [hfree] at hq
      next => exact h.gone p
      next => exact h
  | act p c =>
      simp only [Crew.step]
      split
      next e next hp =>
        obtain ⟨hholder, hrest⟩ := h.inside p _ hp
        refine ⟨(hrest c).1, fun q rest hq => ?_⟩
        rcases eq_or_ne q p with rfl | hne
        · obtain rfl : next (dev.respond e c w.shared).1 = rest := by simpa [goto] using hq
          exact ⟨hholder, (hrest c).2⟩
        · have hq := (h.inside q rest (by simpa [goto, hne] using hq)).1
          exact absurd (Option.some.inj (hholder.symm.trans hq)).symm hne
      next => exact h
  | leave p =>
      simp only [Crew.step]
      split
      next => exact h.gone p
      next => exact h.gone p
      next => exact h
  | crash p => exact h.gone p

/-- The rule of the lock: what every program keeps from any state, at each of its effects, holds
in every state of every run of processes behind the lock. -/
theorem run_invariant (hbody : ∀ job s, I s →
    (body job).wp dev I (fun _ _ => True) (fun _ _ => True) s) {s : σ} (h : I s)
    (moves : List (Move ι π χ)) :
    I (run dev body (start s : Crew ε ρ ξ ι π σ) moves).shared := by
  have hsafe : ∀ (moves : List (Move ι π χ)) (w : Crew ε ρ ξ ι π σ), Safe dev I w →
      Safe dev I (run dev body w moves) := by
    intro moves
    induction moves with
    | nil => exact fun _ hw => hw
    | cons m moves ih => exact fun w hw => ih _ (hw.step m fun job _ => hbody job _ hw.shared)
  have hstart : Safe dev I (start s : Crew ε ρ ξ ι π σ) := ⟨h, fun p rest hp => by simp [start] at hp⟩
  exact (hsafe moves _ hstart).shared

/-- Whoever is given the lock finds a state that meets the condition. -/
def AdmitsWhen (dev : Device ε ρ χ σ) (body : ι → Prog ε ρ ξ PUnit.{u + 1}) (P : ι → σ → Prop) :
    Crew ε ρ ξ ι π σ → List (Move ι π χ) → Prop
  | _, [] => True
  | w, m :: moves => (∀ job, w.Admits m job → P job w.shared) ∧
      AdmitsWhen dev body P (w.step dev body m) moves

theorem admitsWhen_of_forall {P : ι → σ → Prop} (hP : ∀ job s, P job s) (w : Crew ε ρ ξ ι π σ)
    (moves : List (Move ι π χ)) : AdmitsWhen dev body P w moves := by
  induction moves generalizing w with
  | nil => trivial
  | cons m moves ih => exact ⟨fun job _ => hP job _, ih _⟩

/-- The rule of the lock for programs that need more than the invariant to begin with. -/
theorem run_invariant_of_admitsWhen {P : ι → σ → Prop} (hbody : ∀ job s, I s → P job s →
    (body job).wp dev I (fun _ _ => True) (fun _ _ => True) s) {s : σ} (h : I s)
    (moves : List (Move ι π χ)) (hP : AdmitsWhen dev body P (start s : Crew ε ρ ξ ι π σ) moves) :
    I (run dev body (start s : Crew ε ρ ξ ι π σ) moves).shared := by
  have hsafe : ∀ (moves : List (Move ι π χ)) (w : Crew ε ρ ξ ι π σ), Safe dev I w →
      AdmitsWhen dev body P w moves → Safe dev I (run dev body w moves) := by
    intro moves
    induction moves with
    | nil => exact fun _ hw _ => hw
    | cons m moves ih =>
        exact fun w hw hP =>
          ih _ (hw.step m fun job hjob => hbody job _ hw.shared (hP.1 job hjob)) hP.2
  have hstart : Safe dev I (start s : Crew ε ρ ξ ι π σ) := ⟨h, fun p rest hp => by simp [start] at hp⟩
  exact (hsafe moves _ hstart hP).shared

end Crew
end ResearchLab.Foundation
