import Mathlib

/-!
# Numbers in a mixed radix

One digit for each size, the most significant first. A number below the product of the sizes and
its digits determine each other.
-/
namespace ResearchLab.Foundation

/-- The digits of a number, and what is left of it: the last size is divided by first. -/
def splitDigits (sizes : List ℕ) (n : ℕ) : ℕ × List ℕ :=
  sizes.foldr (fun size r => (r.1 / size, r.1 % size :: r.2)) (n, [])

def digitsOf (sizes : List ℕ) (n : ℕ) : List ℕ := (splitDigits sizes n).2

def ofDigits (sizes digits : List ℕ) : ℕ :=
  (digits.zip sizes).foldl (fun n d => n * d.2 + d.1) 0

/-- Digits below their sizes. -/
def AreDigits (sizes digits : List ℕ) : Prop := List.Forall₂ (fun size d => d < size) sizes digits

variable {sizes digits : List ℕ} {n size d : ℕ}

theorem splitDigits_cons : splitDigits (size :: sizes) n =
    ((splitDigits sizes n).1 / size, (splitDigits sizes n).1 % size :: (splitDigits sizes n).2) :=
  rfl

theorem foldl_ofDigits (h : digits.length = sizes.length) :
    (digits.zip sizes).foldl (fun n d => n * d.2 + d.1) n =
      n * sizes.prod + ofDigits sizes digits := by
  induction digits generalizing sizes n with
  | nil =>
      obtain rfl := List.length_eq_zero_iff.1 h.symm
      simp [ofDigits]
  | cons d ds ih =>
      cases sizes with
      | nil => simp at h
      | cons size sizes =>
          have hlength : ds.length = sizes.length := by simpa using h
          rw [ofDigits, List.zip_cons_cons, List.foldl_cons, List.foldl_cons, ih hlength,
            ih hlength, List.prod_cons]
          ring

theorem ofDigits_cons (h : digits.length = sizes.length) :
    ofDigits (size :: sizes) (d :: digits) = d * sizes.prod + ofDigits sizes digits := by
  rw [ofDigits, List.zip_cons_cons, List.foldl_cons, foldl_ofDigits h]
  simp

theorem AreDigits.length_eq (h : AreDigits sizes digits) : digits.length = sizes.length :=
  (List.Forall₂.length_eq h).symm

theorem splitDigits_fst (sizes : List ℕ) (n : ℕ) : (splitDigits sizes n).1 = n / sizes.prod := by
  induction sizes with
  | nil => simp [splitDigits]
  | cons size sizes ih =>
      rw [splitDigits_cons, ih, List.prod_cons, Nat.div_div_eq_div_mul, Nat.mul_comm]

theorem areDigits_digitsOf (hpos : ∀ size ∈ sizes, 0 < size) (n : ℕ) :
    AreDigits sizes (digitsOf sizes n) := by
  induction sizes with
  | nil => exact .nil
  | cons size sizes ih =>
      refine .cons (Nat.mod_lt _ (hpos size (List.mem_cons_self ..))) ?_
      exact ih fun size' h => hpos size' (List.mem_cons_of_mem _ h)

theorem ofDigits_digitsOf_mod (hpos : ∀ size ∈ sizes, 0 < size) (n : ℕ) :
    ofDigits sizes (digitsOf sizes n) = n % sizes.prod := by
  induction sizes with
  | nil => simp [ofDigits, digitsOf, splitDigits, Nat.mod_one]
  | cons size sizes ih =>
      have hpos' : ∀ size' ∈ sizes, 0 < size' := fun size' h => hpos size' (List.mem_cons_of_mem _ h)
      have hdigits : digitsOf (size :: sizes) n =
          n / sizes.prod % size :: digitsOf sizes n := by
        rw [digitsOf, splitDigits_cons, splitDigits_fst, digitsOf]
      rw [hdigits, ofDigits_cons (areDigits_digitsOf hpos' n).length_eq, ih hpos', List.prod_cons,
        Nat.mul_comm size, Nat.mod_mul]
      ring

/-- A number below the product is what its digits say. -/
theorem ofDigits_digitsOf (hpos : ∀ size ∈ sizes, 0 < size) (hn : n < sizes.prod) :
    ofDigits sizes (digitsOf sizes n) = n := by
  rw [ofDigits_digitsOf_mod hpos, Nat.mod_eq_of_lt hn]

theorem splitDigits_ofDigits (h : AreDigits sizes digits) (k : ℕ) :
    splitDigits sizes (k * sizes.prod + ofDigits sizes digits) = (k, digits) := by
  induction h generalizing k with
  | nil => simp [splitDigits, ofDigits]
  | cons hd hds ih =>
      rename_i size d sizes digits
      have hnumber : k * (size :: sizes).prod + ofDigits (size :: sizes) (d :: digits) =
          (k * size + d) * sizes.prod + ofDigits sizes digits := by
        rw [ofDigits_cons (AreDigits.length_eq hds), List.prod_cons]
        ring
      rw [hnumber, splitDigits_cons, ih]
      have hdiv : (k * size + d) / size = k := by
        rw [Nat.add_comm, Nat.add_mul_div_right _ _ (by omega), Nat.div_eq_of_lt hd, Nat.zero_add]
      have hmod : (k * size + d) % size = d := by
        rw [Nat.add_comm, Nat.add_mul_mod_self_right, Nat.mod_eq_of_lt hd]
      rw [hdiv, hmod]

/-- Digits are those of their number. -/
theorem digitsOf_ofDigits (h : AreDigits sizes digits) :
    digitsOf sizes (ofDigits sizes digits) = digits := by
  have hsplit := splitDigits_ofDigits h 0
  rw [Nat.zero_mul, Nat.zero_add] at hsplit
  rw [digitsOf, hsplit]

end ResearchLab.Foundation
