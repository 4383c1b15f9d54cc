import Mathlib
import ResearchLab.Foundation.Effects

/-!
# Executions

The choices are a stream. An execution takes them from it one after the other, one for each
effect, and what follows goes on with the rest of the stream. A loop leaves behind what each of its
rounds did to the state.
-/
namespace ResearchLab.Foundation

universe u v w

/-- What an execution comes to, the state behind it and the choices it did not take. -/
structure Ending (ξ α : Type u) (χ : Type v) (σ : Type w) where
  result : Except ξ α
  state : σ
  rest : Stream' χ

/-- The state before a round and after it. -/
structure Span (σ : Type w) where
  before : σ
  after : σ

namespace Prog

variable {ε : Type u} {ρ : ε → Type u} {ξ : Type u} {α β δ μ : Type u} {χ : Type v} {σ : Type w}
  {ι : Type v}

/-- `try: ... except: ... else: ...`, where what follows is not covered by the handler. -/
def tryElse : Prog ε ρ ξ α → (α → Prog ε ρ ξ β) → (ξ → Prog ε ρ ξ β) → Prog ε ρ ξ β
  | .ret a, f, _ => f a
  | .raise x, _, handler => handler x
  | .act e next, f, handler => .act e fun r => (next r).tryElse f handler

/-- `try: ... finally: ...`. -/
def finallyDo (p : Prog ε ρ ξ α) (cleanup : Prog ε ρ ξ β) : Prog ε ρ ξ α :=
  p.tryElse (fun a => cleanup.bind fun _ => .ret a) fun x => cleanup.bind fun _ => .raise x

def exec (dev : Device ε ρ χ σ) : Prog ε ρ ξ α → Stream' χ → σ → Ending ξ α χ σ
  | .ret a, cs, s => ⟨.ok a, s, cs⟩
  | .raise x, cs, s => ⟨.error x, s, cs⟩
  | .act e next, cs, s =>
      (next (dev.respond e cs.head s).1).exec dev cs.tail (dev.respond e cs.head s).2

/-- The rounds of a loop that were begun. -/
def spans (dev : Device ε ρ χ σ) (body : α → ι → Prog ε ρ ξ α) :
    α → List ι → Stream' χ → σ → List (Span σ)
  | _, [], _, _ => []
  | a, i :: is, cs, s =>
      let round := (body a i).exec dev cs s
      ⟨s, round.state⟩ :: match round.result with
        | .ok a' => spans dev body a' is round.rest round.state
        | .error _ => []

/-- A round that adds one result to a list and hands on a memory. -/
def collecting (body : μ → ι → Prog ε ρ ξ (δ × μ)) (acc : List δ × μ) (i : ι) :
    Prog ε ρ ξ (List δ × μ) :=
  (body acc.2 i).bind fun r => .ret (acc.1 ++ [r.1], r.2)

variable {dev : Device ε ρ χ σ} {I : σ → Prop} {E : ξ → σ → Prop} {s : σ} {cs : Stream' χ}

/-! ## Sequences -/

theorem wp_tryElse {p : Prog ε ρ ξ α} {f : α → Prog ε ρ ξ β} {handler : ξ → Prog ε ρ ξ β}
    {Q : β → σ → Prop}
    (h : wp dev I (fun a => wp dev I Q E (f a)) (fun x => wp dev I Q E (handler x)) p s) :
    wp dev I Q E (p.tryElse f handler) s := by
  induction p generalizing s with
  | ret a => exact h
  | raise x => exact h
  | act e next ih => exact fun c => ⟨(h c).1, ih _ (h c).2⟩

theorem wp_finallyDo {p : Prog ε ρ ξ α} {cleanup : Prog ε ρ ξ β} {Q : α → σ → Prop}
    (h : wp dev I (fun a => wp dev I (fun _ => Q a) E cleanup)
      (fun x => wp dev I (fun _ => E x) E cleanup) p s) :
    wp dev I Q E (p.finallyDo cleanup) s :=
  wp_tryElse (wp_mono (fun _ _ => wp_bind) (fun _ _ => wp_bind) h)

theorem exec_bind_ok {p : Prog ε ρ ξ α} (f : α → Prog ε ρ ξ β) {a : α}
    (h : (p.exec dev cs s).result = .ok a) :
    (p.bind f).exec dev cs s = (f a).exec dev (p.exec dev cs s).rest (p.exec dev cs s).state := by
  induction p generalizing cs s with
  | ret a' =>
      obtain rfl : a' = a := Except.ok.inj h
      rfl
  | raise x => cases h
  | act e next ih => exact ih _ h

theorem exec_bind_error {p : Prog ε ρ ξ α} (f : α → Prog ε ρ ξ β) {x : ξ}
    (h : (p.exec dev cs s).result = .error x) :
    (p.bind f).exec dev cs s = ⟨.error x, (p.exec dev cs s).state, (p.exec dev cs s).rest⟩ := by
  induction p generalizing cs s with
  | ret a => cases h
  | raise x' =>
      obtain rfl : x' = x := Except.error.inj h
      rfl
  | act e next ih => exact ih _ h

theorem exec_tryElse_ok {p : Prog ε ρ ξ α} (f : α → Prog ε ρ ξ β) (handler : ξ → Prog ε ρ ξ β)
    {a : α} (h : (p.exec dev cs s).result = .ok a) :
    (p.tryElse f handler).exec dev cs s =
      (f a).exec dev (p.exec dev cs s).rest (p.exec dev cs s).state := by
  induction p generalizing cs s with
  | ret a' =>
      obtain rfl : a' = a := Except.ok.inj h
      rfl
  | raise x => cases h
  | act e next ih => exact ih _ h

theorem exec_tryElse_error {p : Prog ε ρ ξ α} (f : α → Prog ε ρ ξ β)
    (handler : ξ → Prog ε ρ ξ β) {x : ξ} (h : (p.exec dev cs s).result = .error x) :
    (p.tryElse f handler).exec dev cs s =
      (handler x).exec dev (p.exec dev cs s).rest (p.exec dev cs s).state := by
  induction p generalizing cs s with
  | ret a => cases h
  | raise x' =>
      obtain rfl : x' = x := Except.error.inj h
      rfl
  | act e next ih => exact ih _ h

/-! ## What holds of every execution -/

/-- What holds whatever the choices are holds of each execution. -/
theorem wp_exec {p : Prog ε ρ ξ α} {Q : α → σ → Prop} (h : wp dev I Q E p s) (cs : Stream' χ) :
    (∀ a, (p.exec dev cs s).result = .ok a → Q a (p.exec dev cs s).state) ∧
      ∀ x, (p.exec dev cs s).result = .error x → E x (p.exec dev cs s).state := by
  induction p generalizing s cs with
  | ret a =>
      refine ⟨fun a' ha => ?_, fun x hx => (by cases hx)⟩
      obtain rfl : a = a' := Except.ok.inj ha
      exact h
  | raise x =>
      refine ⟨fun a ha => (by cases ha), fun x' hx => ?_⟩
      obtain rfl : x = x' := Except.error.inj hx
      exact h
  | act e next ih => exact ih _ (h cs.head).2 cs.tail

/-- A relation of each state to the next relates the first one to the last. -/
theorem exec_rel {R : σ → σ → Prop} (hrefl : ∀ s, R s s) (htrans : ∀ {a b c}, R a b → R b c → R a c)
    (hstep : ∀ e c s, R s (dev.respond e c s).2) (p : Prog ε ρ ξ α) (cs : Stream' χ) (s : σ) :
    R s (p.exec dev cs s).state := by
  induction p generalizing cs s with
  | ret a => exact hrefl s
  | raise x => exact hrefl s
  | act e next ih => exact htrans (hstep e cs.head s) (ih _ _ _)

/-! ## Loops -/

/-- The loop rule with the items that are done. -/
theorem wp_forEach_done {body : α → ι → Prog ε ρ ξ α} {Q : List ι → α → σ → Prop} {is : List ι}
    (hbody : ∀ done i a s, Q done a s → wp dev I (Q (done ++ [i])) E (body a i) s) {a : α}
    (done : List ι) (h : Q done a s) : wp dev I (Q (done ++ is)) E (forEach body a is) s := by
  induction is generalizing done a s with
  | nil => rwa [List.append_nil]
  | cons i is ih =>
      refine wp_bind (wp_mono (fun a' s' hQ => ?_) (fun _ _ => id) (hbody done i a s h))
      have hrest := ih (done ++ [i]) hQ
      rwa [List.append_assoc, List.singleton_append] at hrest

theorem length_spans_le (body : α → ι → Prog ε ρ ξ α) (a : α) (is : List ι) (cs : Stream' χ)
    (s : σ) : (spans dev body a is cs s).length ≤ is.length := by
  induction is generalizing a cs s with
  | nil => exact le_rfl
  | cons i is ih =>
      simp only [spans, List.length_cons]
      split
      · have := ih ‹_› ((body a i).exec dev cs s).rest ((body a i).exec dev cs s).state
        omega
      · simp

/-- The rounds lie between the first state and the last. -/
theorem spans_rel {R : σ → σ → Prop} (hrefl : ∀ s, R s s)
    (htrans : ∀ {a b c}, R a b → R b c → R a c) (hstep : ∀ e c s, R s (dev.respond e c s).2)
    {body : α → ι → Prog ε ρ ξ α} {a : α} {is : List ι} {span : Span σ}
    (h : span ∈ spans dev body a is cs s) :
    R s span.before ∧ R span.after ((forEach body a is).exec dev cs s).state := by
  induction is generalizing a cs s with
  | nil => cases h
  | cons i is ih =>
      have hround : R s ((body a i).exec dev cs s).state := exec_rel hrefl htrans hstep _ _ _
      rw [forEach]
      cases hresult : ((body a i).exec dev cs s).result with
      | error x =>
          simp only [spans, hresult, List.mem_singleton] at h
          subst h
          rw [exec_bind_error _ hresult]
          exact ⟨hrefl s, hrefl _⟩
      | ok a' =>
          simp only [spans, hresult, List.mem_cons] at h
          rw [exec_bind_ok _ hresult]
          rcases h with rfl | h
          · exact ⟨hrefl s, exec_rel hrefl htrans hstep _ _ _⟩
          · have hrest := ih h
            exact ⟨htrans hround hrest.1, hrest.2⟩

/-- What a loop collected: one result for each item, and what each round ensures about its own. -/
structure Collected (Fact : ι → Span σ → δ → Prop) (is : List ι) (spans : List (Span σ))
    (ds : List δ) : Prop where
  length : ds.length = is.length
  rounds : spans.length = is.length
  fact : ∀ (n : ℕ) (d : δ), ds[n]? = some d →
    ∃ i span, is[n]? = some i ∧ spans[n]? = some span ∧ Fact i span d

theorem Collected.cons {Fact : ι → Span σ → δ → Prop} {i : ι} {is : List ι} {span : Span σ}
    {spans : List (Span σ)} {d : δ} {ds : List δ} (hd : Fact i span d)
    (h : Collected Fact is spans ds) : Collected Fact (i :: is) (span :: spans) (d :: ds) := by
  refine ⟨by simp [h.length], by simp [h.rounds], fun n d' hd' => ?_⟩
  cases n with
  | zero =>
      obtain rfl : d = d' := by simpa using hd'
      exact ⟨i, span, rfl, rfl, hd⟩
  | succ n => exact h.fact n d' (by simpa using hd')

theorem Collected.forall₂ {Fact : ι → Span σ → δ → Prop} {is : List ι} {spans : List (Span σ)}
    {ds : List δ} (h : Collected Fact is spans ds) {R : ι → δ → Prop}
    (hR : ∀ i span d, Fact i span d → R i d) : List.Forall₂ R is ds := by
  refine List.forall₂_iff_get.2 ⟨h.length.symm, fun n hn hn' => ?_⟩
  obtain ⟨i, span, hi, -, hfact⟩ := h.fact n _ (List.getElem?_eq_getElem hn')
  obtain rfl : is[n] = i := by simpa [List.getElem?_eq_getElem hn] using hi
  exact hR _ span _ hfact

/-- The rule of the collecting loop. -/
theorem exec_collecting {Fact : ι → Span σ → δ → Prop} {body : μ → ι → Prog ε ρ ξ (δ × μ)}
    (hbody : ∀ m i s, wp dev (fun _ => True) (fun r s' => Fact i ⟨s, s'⟩ r.1) E (body m i) s)
    (is : List ι) (ds : List δ) (m : μ) (cs : Stream' χ) (s : σ) {acc : List δ × μ}
    (h : ((forEach (collecting body) (ds, m) is).exec dev cs s).result = .ok acc) :
    ∃ new, acc.1 = ds ++ new ∧
      Collected Fact is (spans dev (collecting body) (ds, m) is cs s) new := by
  induction is generalizing ds m cs s with
  | nil =>
      obtain rfl : (ds, m) = acc := Except.ok.inj h
      exact ⟨[], by simp, rfl, rfl, fun n d hd => by simp at hd⟩
  | cons i is ih =>
      rw [forEach] at h
      have hround : ∀ r, ((body m i).exec dev cs s).result = .ok r →
          (collecting body (ds, m) i).exec dev cs s =
            ⟨.ok (ds ++ [r.1], r.2), ((body m i).exec dev cs s).state,
              ((body m i).exec dev cs s).rest⟩ := fun r hr => exec_bind_ok _ hr
      cases hr : ((body m i).exec dev cs s).result with
      | error x =>
          have herror : ((collecting body (ds, m) i).exec dev cs s).result = .error x := by
            rw [collecting, exec_bind_error _ hr]
          rw [exec_bind_error _ herror] at h
          cases h
      | ok r =>
          have hround := hround r hr
          have hok : ((collecting body (ds, m) i).exec dev cs s).result =
              .ok (ds ++ [r.1], r.2) := by rw [hround]
          rw [exec_bind_ok _ hok, hround] at h
          obtain ⟨new, hacc, hnew⟩ := ih _ _ _ _ h
          refine ⟨r.1 :: new, by rw [hacc]; simp, ?_⟩
          have hfact := (wp_exec (hbody m i s) cs).1 r hr
          simp only [spans, hround]
          exact Collected.cons hfact hnew

end Prog
end ResearchLab.Foundation
