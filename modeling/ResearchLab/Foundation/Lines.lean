import Mathlib.Data.List.Basic

/-!
# Splitting a text into lines

A line runs through its line break. Breaks may be of several kinds, and two characters may make
one break between them. Whoever takes only the lines that end in a break of one kind, from the
front and as far as they come, has taken a text that `settled` describes without lines.
-/
namespace ResearchLab.Foundation

variable {α : Type} (brk nl : α → Bool) (pair : α → α → Bool)

/-- `str.splitlines(keepends=True)`. -/
def splitLines : List α → List (List α)
  | [] => []
  | [c] => [[c]]
  | c :: d :: cs =>
      if pair c d then [c, d] :: splitLines cs
      else if brk c then [c] :: splitLines (d :: cs)
      else
        match splitLines (d :: cs) with
        | [] => [[c]]
        | l :: ls => (c :: l) :: ls

/-- The line ends in a break of the kind. -/
def endsIn (line : List α) : Bool := line.getLast?.any nl

/-- The lines at the front that are complete. -/
def completeLines (text : List α) : List (List α) :=
  (splitLines brk pair text).takeWhile (endsIn nl)

/-- What is left of the text behind them. -/
def restOfLines (text : List α) : List α :=
  ((splitLines brk pair text).dropWhile (endsIn nl)).flatten

/-- The text through its last character of a kind. -/
def throughLast : List α → List α
  | [] => []
  | c :: cs => if (c :: cs).any nl then c :: throughLast cs else []

/-- A break of another kind. -/
def foreign (c : α) : Bool := brk c && !nl c

/-- The text in front of every other break, through its last break of the kind. -/
def settled (text : List α) : List α := throughLast nl (text.takeWhile fun c => !foreign brk nl c)

/-- No break of the kind stands behind another break. -/
def Clean (text : List α) : Prop :=
  text.Pairwise fun c d => ¬(foreign brk nl c = true ∧ nl d = true)

variable {brk nl pair} {c d : α} {text cs xs ys : List α}

/-! ## Lines -/

theorem splitLines_eq_nil : splitLines brk pair text = [] ↔ text = [] := by
  fun_cases splitLines brk pair text <;> simp_all

theorem flatten_splitLines (text : List α) : (splitLines brk pair text).flatten = text := by
  fun_induction splitLines brk pair text with
  | case1 => rfl
  | case2 c => rfl
  | case3 c d cs hpair ih => simp [ih]
  | case4 c d cs hpair hbrk ih => simp [ih]
  | case5 c d cs hpair hbrk hnil ih => simp [splitLines_eq_nil] at hnil
  | case6 c d cs hpair hbrk l ls hlines ih =>
      rw [hlines, List.flatten_cons] at ih
      simp [ih]

theorem ne_nil_of_mem_splitLines {l : List α} (h : l ∈ splitLines brk pair text) : l ≠ [] := by
  fun_induction splitLines brk pair text with
  | case1 => simp at h
  | case2 c => simp_all
  | case3 c d cs hpair ih => grind
  | case4 c d cs hpair hbrk ih => grind
  | case5 c d cs hpair hbrk hnil ih => simp [splitLines_eq_nil] at hnil
  | case6 c d cs hpair hbrk l ls hlines ih => grind

/-- A text that ends in a whole break is split by itself. -/
theorem splitLines_append {b : α} (hbrk : brk b = true) (hpair : ∀ d, pair b d = false)
    (hlast : xs.getLast? = some b) :
    splitLines brk pair (xs ++ ys) = splitLines brk pair xs ++ splitLines brk pair ys := by
  fun_induction splitLines brk pair xs with
  | case1 => simp at hlast
  | case2 c =>
      obtain rfl : c = b := by simpa using hlast
      cases ys with
      | nil => simp [splitLines]
      | cons y ys => simp [splitLines, hpair, hbrk]
  | case3 c d cs hcd ih =>
      rw [List.cons_append, List.cons_append, splitLines, if_pos hcd]
      by_cases hcs : cs = []
      · simp [hcs, splitLines]
      · obtain ⟨x, cs, rfl⟩ := List.exists_cons_of_ne_nil hcs
        rw [ih (by simpa using hlast)]
        rfl
  | case4 c d cs hcd hc ih =>
      rw [List.cons_append, List.cons_append, splitLines, if_neg hcd, if_pos hc,
        ← List.cons_append, ih (by simpa using hlast)]
      rfl
  | case5 c d cs hcd hc hnil ih => simp [splitLines_eq_nil] at hnil
  | case6 c d cs hcd hc l ls hlines ih =>
      have hrest := ih (by simpa using hlast)
      rw [hlines, List.cons_append] at hrest
      rw [List.cons_append, List.cons_append, splitLines, if_neg hcd, if_neg hc,
        ← List.cons_append, List.cons_append, hrest]
      rfl

theorem completeLines_append_rest (text : List α) :
    (completeLines brk nl pair text).flatten ++ restOfLines brk nl pair text = text := by
  rw [completeLines, restOfLines, ← List.flatten_append, List.takeWhile_append_dropWhile,
    flatten_splitLines]

theorem any_of_endsIn (h : endsIn nl text = true) : text.any nl = true := by
  obtain ⟨c, hlast, hc⟩ : ∃ c, text.getLast? = some c ∧ nl c = true := by
    simpa [endsIn, Option.any_eq_true] using h
  exact List.any_eq_true.2 ⟨c, List.mem_of_getLast? hlast, hc⟩

theorem endsIn_cons (h : xs ≠ []) : endsIn nl (c :: xs) = endsIn nl xs := by
  obtain ⟨x, xs, rfl⟩ := List.exists_cons_of_ne_nil h
  simp [endsIn, List.getLast?_cons_cons]

/-! ## The text through a last character -/

@[simp] theorem throughLast_nil : throughLast nl [] = [] := rfl

theorem throughLast_cons :
    throughLast nl (c :: cs) = if (c :: cs).any nl then c :: throughLast nl cs else [] := rfl

theorem throughLast_of_none (h : text.any nl = false) : throughLast nl text = [] := by
  cases text with
  | nil => rfl
  | cons c cs => rw [throughLast_cons, h, if_neg Bool.false_ne_true]

theorem throughLast_eq_nil : throughLast nl text = [] ↔ text.any nl = false := by
  refine ⟨fun h => ?_, throughLast_of_none⟩
  cases text with
  | nil => rfl
  | cons c cs =>
      rw [throughLast_cons] at h
      by_contra hany
      rw [if_pos (Bool.not_eq_false _ ▸ hany)] at h
      exact List.cons_ne_nil _ _ h

theorem throughLast_cons_of_ne_nil (h : throughLast nl cs ≠ []) :
    throughLast nl (c :: cs) = c :: throughLast nl cs := by
  have hany : cs.any nl = true := by simpa [throughLast_eq_nil] using h
  rw [throughLast_cons, if_pos (by simp [hany])]

theorem prefix_throughLast (text : List α) : throughLast nl text <+: text := by
  induction text with
  | nil => exact List.prefix_rfl
  | cons c cs ih =>
      rw [throughLast_cons]
      split
      · exact List.cons_prefix_cons.2 ⟨rfl, ih⟩
      · exact List.nil_prefix

theorem endsIn_throughLast (h : throughLast nl text ≠ []) :
    endsIn nl (throughLast nl text) = true := by
  induction text with
  | nil => exact absurd rfl h
  | cons c cs ih =>
      by_cases hrest : throughLast nl cs = []
      · have hnone : cs.any nl = false := throughLast_eq_nil.1 hrest
        have hany : (c :: cs).any nl = true := by
          by_contra hany
          exact h (throughLast_of_none (Bool.eq_false_iff.2 hany))
        have hnl : nl c = true := by simpa [List.any_cons, hnone] using hany
        rw [throughLast_cons, if_pos hany, hrest]
        simp [endsIn, hnl]
      · rw [throughLast_cons_of_ne_nil hrest, endsIn_cons hrest]
        exact ih hrest

/-- A text that ends in the kind is all of it. -/
theorem throughLast_of_endsIn (h : endsIn nl text = true) : throughLast nl text = text := by
  induction text with
  | nil => rfl
  | cons c cs ih =>
      rw [throughLast_cons, if_pos (any_of_endsIn h)]
      by_cases hcs : cs = []
      · simp [hcs]
      · rw [ih (by rwa [endsIn_cons hcs] at h)]

theorem throughLast_eq_self : throughLast nl text = text ↔ text = [] ∨ endsIn nl text = true := by
  constructor
  · intro h
    by_cases hnil : text = []
    · exact .inl hnil
    · exact .inr (h ▸ endsIn_throughLast (by rwa [h]))
  · rintro (rfl | h)
    · rfl
    · exact throughLast_of_endsIn h

theorem throughLast_append (h : xs = [] ∨ endsIn nl xs = true) :
    throughLast nl (xs ++ ys) = xs ++ throughLast nl ys := by
  induction xs with
  | nil => rfl
  | cons c cs ih =>
      have hends : endsIn nl (c :: cs) = true := h.resolve_left (List.cons_ne_nil c cs)
      have hany : (c :: cs).any nl = true := any_of_endsIn hends
      have hrest : cs = [] ∨ endsIn nl cs = true := by
        by_cases hcs : cs = []
        · exact .inl hcs
        · exact .inr (by rwa [endsIn_cons hcs] at hends)
      rw [List.cons_append, throughLast_cons, ih hrest, if_pos, List.cons_append]
      rw [← List.cons_append, List.any_append, hany, Bool.true_or]

/-! ## What the complete lines hold -/

theorem settled_of_foreign (h : foreign brk nl c = true) : settled brk nl (c :: cs) = [] := by
  simp [settled, h]

theorem settled_cons (h : foreign brk nl c = false) :
    settled brk nl (c :: cs) =
      if nl c = true ∨ settled brk nl cs ≠ [] then c :: settled brk nl cs else [] := by
  have htake : (c :: cs).takeWhile (fun c => !foreign brk nl c) =
      c :: cs.takeWhile fun c => !foreign brk nl c := List.takeWhile_cons_of_pos (by simp [h])
  rw [settled, htake, throughLast_cons]
  refine if_congr ?_ rfl rfl
  rw [List.any_cons, Bool.or_eq_true, settled, ne_eq, throughLast_eq_nil, Bool.not_eq_false]

theorem settled_nil : settled brk nl ([] : List α) = [] := rfl

theorem settled_prefix (text : List α) : settled brk nl text <+: text :=
  (prefix_throughLast _).trans (List.takeWhile_prefix _)

theorem endsIn_settled : settled brk nl text = [] ∨ endsIn nl (settled brk nl text) = true := by
  by_cases h : settled brk nl text = []
  · exact .inl h
  · exact .inr (endsIn_throughLast h)

theorem not_foreign_of_mem_settled (h : c ∈ settled brk nl text) : foreign brk nl c = false := by
  have hmem := (prefix_throughLast _).subset h
  simpa using List.all_eq_true.1 (List.all_takeWhile ..) c hmem

theorem settled_of_none (h : text.any nl = false) : settled brk nl text = [] := by
  refine throughLast_of_none (Bool.eq_false_iff.2 fun hany => Bool.eq_false_iff.1 h ?_)
  obtain ⟨c, hc, hnl⟩ := List.any_eq_true.1 hany
  exact List.any_eq_true.2 ⟨c, (List.takeWhile_prefix _).subset hc, hnl⟩

/-- Complete lines from the front are the settled text, however the breaks fall. -/
theorem flatten_completeLines (hnl : ∀ c, nl c = true → brk c = true)
    (hpair : ∀ c d, pair c d = true → nl c = true ∧ nl d = true) (text : List α) :
    (completeLines brk nl pair text).flatten = settled brk nl text := by
  unfold completeLines
  have hfriend : ∀ c, nl c = true → foreign brk nl c = false := fun c h => by simp [foreign, h]
  fun_induction splitLines brk pair text with
  | case1 => rfl
  | case2 c =>
      cases hc : nl c with
      | true => simp [settled_cons (hfriend c hc), settled_nil, hc, endsIn]
      | false =>
          cases hf : foreign brk nl c with
          | true => simp [settled_of_foreign hf, endsIn, hc]
          | false => simp [settled_cons hf, settled_nil, endsIn, hc]
  | case3 c d cs hcd ih =>
      obtain ⟨hc, hd⟩ := hpair c d hcd
      rw [settled_cons (hfriend c hc), if_pos (.inl hc), settled_cons (hfriend d hd),
        if_pos (.inl hd), List.takeWhile_cons_of_pos (by simp [endsIn, hd]), List.flatten_cons, ih]
      rfl
  | case4 c d cs hcd hbrk ih =>
      cases hc : nl c with
      | true =>
          rw [settled_cons (hfriend c hc), if_pos (.inl hc),
            List.takeWhile_cons_of_pos (by simp [endsIn, hc]), List.flatten_cons, ih]
          rfl
      | false =>
          have hf : foreign brk nl c = true := by simp [foreign, hbrk, hc]
          rw [settled_of_foreign hf, List.takeWhile_cons_of_neg (by simp [endsIn, hc])]
          rfl
  | case5 c d cs hcd hbrk hnil ih => simp [splitLines_eq_nil] at hnil
  | case6 c d cs hcd hbrk l ls hlines ih =>
      -- the character lengthens the first line, which is complete as it was
      have hc : nl c = false := by
        by_contra hc
        exact hbrk (hnl c (Bool.not_eq_false _ ▸ hc))
      have hf : foreign brk nl c = false := by simpa [foreign, hc] using hbrk
      have hl : l ≠ [] := ne_nil_of_mem_splitLines (hlines ▸ List.mem_cons_self ..)
      rw [hlines] at ih
      rw [settled_cons hf, ← ih]
      cases hends : endsIn nl l with
      | true =>
          rw [List.takeWhile_cons_of_pos (by rwa [endsIn_cons hl]),
            List.takeWhile_cons_of_pos hends, if_pos (.inr (by simp [hl]))]
          rfl
      | false =>
          rw [List.takeWhile_cons_of_neg (by simp [endsIn_cons hl, hends]),
            List.takeWhile_cons_of_neg (by simp [hends]), if_neg (by simp [hc])]
          rfl

theorem restOfLines_eq (hnl : ∀ c, nl c = true → brk c = true)
    (hpair : ∀ c d, pair c d = true → nl c = true ∧ nl d = true) (text : List α) :
    settled brk nl text ++ restOfLines brk nl pair text = text := by
  rw [← flatten_completeLines hnl hpair text, completeLines_append_rest]

/-- A text in front that is settled stays as it is. -/
theorem settled_append (hxs : ∀ c ∈ xs, foreign brk nl c = false)
    (hends : xs = [] ∨ endsIn nl xs = true) :
    settled brk nl (xs ++ ys) = xs ++ settled brk nl ys := by
  rw [settled, List.takeWhile_append_of_pos (by simpa using hxs), throughLast_append hends]
  rfl

theorem settled_append_rest {text rest : List α} (h : settled brk nl text ++ rest = text) :
    settled brk nl (text ++ ys) = settled brk nl text ++ settled brk nl (rest ++ ys) := by
  conv_lhs => rw [← h, List.append_assoc]
  exact settled_append (fun c => not_foreign_of_mem_settled) endsIn_settled

/-- The settled text reaches the last break of the kind just when the text is clean. -/
theorem settled_eq_throughLast : settled brk nl text = throughLast nl text ↔ Clean brk nl text := by
  induction text with
  | nil => simp [settled_nil, Clean]
  | cons c cs ih =>
      have hclean : Clean brk nl (c :: cs) ↔
          (foreign brk nl c = true → cs.any nl = false) ∧ Clean brk nl cs := by
        simp only [Clean, List.pairwise_cons, not_and, Bool.not_eq_true, List.any_eq_false]
        exact and_congr_left fun _ => ⟨fun h hc d hd => by simp [h d hd hc],
          fun h d hd hc => by simpa using h hc d hd⟩
      rw [hclean]
      cases hf : foreign brk nl c with
      | true =>
          have hc : nl c = false := by
            simp only [foreign, Bool.and_eq_true, Bool.not_eq_true'] at hf
            exact hf.2
          rw [settled_of_foreign hf, eq_comm, throughLast_eq_nil, List.any_cons, hc, Bool.false_or]
          refine ⟨fun h => ⟨fun _ => h, ?_⟩, fun h => h.1 rfl⟩
          rw [← ih, throughLast_of_none h, settled_of_none h]
      | false =>
          simp only [Bool.false_eq_true, false_implies, true_and]
          rw [settled_cons hf, throughLast_cons, ← ih]
          constructor
          · intro h
            by_cases hany : cs.any nl = true
            · have hall : (c :: cs).any nl = true := by rw [List.any_cons, hany, Bool.or_true]
              rw [if_pos hall] at h
              split at h
              · exact (List.cons.inj h).2
              · exact absurd h.symm (List.cons_ne_nil c _)
            · have hnone := Bool.eq_false_iff.2 hany
              rw [settled_of_none hnone, throughLast_of_none hnone]
          · intro h
            rw [h]
            refine if_congr ?_ rfl rfl
            rw [ne_eq, throughLast_eq_nil, Bool.not_eq_false, List.any_cons, Bool.or_eq_true]

end ResearchLab.Foundation
