import Mathlib
import ResearchLab.Foundation.Sorting
import ResearchLab.Providers.OkxPublic

/-!
# The exchange's history

The newest candles behind a cursor, and the candles that a number of pages reaches.
-/
namespace ResearchLab.Providers
open Foundation

variable {F : Type}

/-! ## The exchange -/

/-- The candles of an instrument and bar size, newest first. -/
structure History (py : Python F) where
  rows : List RawRow
  stamp : RawRow → ℤ
  rowTs_eq : ∀ raw ∈ rows, rowTs py raw = some (stamp raw)
  normalized : ∀ raw ∈ rows, (normalizeRow py raw (stamp raw)).isSome
  newestFirst : rows.Pairwise fun a b => stamp b < stamp a

namespace History
variable {py : Python F} (history : History py)

/-- The newest candles strictly older than a cursor, as many as fit on a page. -/
def newest (after : ℤ) : List RawRow :=
  (history.rows.filter fun raw => history.stamp raw < after).take pageLimit

/-- The confirmed candles of a window, oldest first. -/
def window (start_ts end_ts : ℤ) : List (Bar F) :=
  (history.rows.reverse.filter fun raw =>
    !isUnconfirmed raw && decide (start_ts ≤ history.stamp raw ∧ history.stamp raw ≤ end_ts)).filterMap
      fun raw => normalizeRow py raw (history.stamp raw)

/-- How many candles lie strictly between a candle and a cursor. -/
def newer (raw : RawRow) (after : ℤ) : ℕ :=
  history.rows.countP fun other => history.stamp raw < history.stamp other ∧ history.stamp other < after

/-- A confirmed candle is reached by at most `n` pages, each from the cursor to a confirmed candle of
the newest ones behind it. -/
inductive Reaches : ℕ → ℤ → RawRow → Prop
  | page {n : ℕ} {after : ℤ} {raw : RawRow} :
      raw ∈ history.newest after → isUnconfirmed raw = false → Reaches (n + 1) after raw
  | hop {n : ℕ} {after : ℤ} {between raw : RawRow} :
      between ∈ history.newest after → isUnconfirmed between = false →
      Reaches n (history.stamp between) raw → Reaches (n + 1) after raw

variable {history} {after after' : ℤ} {raw raw' : RawRow} {n : ℕ}

theorem mem_newest :
    raw ∈ history.newest after ↔
      raw ∈ history.rows ∧ history.stamp raw < after ∧ history.newer raw after < pageLimit := by
  rw [newest, mem_take_of_descending (history.newestFirst.filter _), List.countP_filter,
    List.mem_filter, decide_eq_true_eq, and_assoc, newer]
  simp only [Bool.decide_and]

theorem stamp_inj (h : raw ∈ history.rows) (h' : raw' ∈ history.rows)
    (heq : history.stamp raw = history.stamp raw') : raw = raw' := by
  refine List.inj_on_of_nodup_map (f := history.stamp) ?_ h h' heq
  exact List.pairwise_map.2 (history.newestFirst.imp fun hlt => hlt.ne')

/-- A candle between a page's candle and its cursor is on the page. -/
theorem mem_newest_of_le (h : raw ∈ history.newest after) (hmem : raw' ∈ history.rows)
    (hle : history.stamp raw ≤ history.stamp raw') (hlt : history.stamp raw' < after) :
    raw' ∈ history.newest after := by
  refine mem_newest.2 ⟨hmem, hlt, lt_of_le_of_lt ?_ (mem_newest.1 h).2.2⟩
  refine List.countP_mono_left fun other _ hother => ?_
  simp only [decide_eq_true_eq] at hother ⊢
  exact ⟨hle.trans_lt hother.1, hother.2⟩

theorem mem_newest_of_cursor_le (h : raw ∈ history.newest after) (hle : after' ≤ after)
    (hlt : history.stamp raw < after') : raw ∈ history.newest after' := by
  obtain ⟨hmem, -, hcount⟩ := mem_newest.1 h
  refine mem_newest.2 ⟨hmem, hlt, lt_of_le_of_lt ?_ hcount⟩
  refine List.countP_mono_left fun other _ hother => ?_
  simp only [decide_eq_true_eq] at hother ⊢
  exact ⟨hother.1, hother.2.trans_le hle⟩

theorem Reaches.more (h : history.Reaches n after raw) : history.Reaches (n + 1) after raw := by
  induction h with
  | page hmem hconf => exact .page hmem hconf
  | hop hmem hconf _ ih => exact .hop hmem hconf ih

theorem Reaches.spec (h : history.Reaches n after raw) :
    raw ∈ history.rows ∧ isUnconfirmed raw = false ∧ history.stamp raw < after := by
  induction h with
  | page hmem hconf => exact ⟨(mem_newest.1 hmem).1, hconf, (mem_newest.1 hmem).2.1⟩
  | hop hmem _ _ ih => exact ⟨ih.1, ih.2.1, ih.2.2.trans (mem_newest.1 hmem).2.1⟩

/-- From an older cursor a candle is reached as soon. -/
theorem Reaches.of_cursor_le (h : history.Reaches n after raw) (hle : after' ≤ after)
    (hlt : history.stamp raw < after') : history.Reaches n after' raw := by
  induction h generalizing after' with
  | page hmem hconf => exact .page (mem_newest_of_cursor_le hmem hle hlt) hconf
  | @hop n after between raw hmem hconf hrest ih =>
    rcases lt_or_ge (history.stamp between) after' with hbetween | hbetween
    · exact .hop (mem_newest_of_cursor_le hmem hle hbetween) hconf (ih le_rfl hrest.spec.2.2)
    · exact (ih hbetween hlt).more

/-- The pager goes on from the oldest confirmed candle of the page: no other way reaches further. -/
theorem reaches_succ {oldest : RawRow} (holdest : oldest ∈ history.newest after)
    (hconf : isUnconfirmed oldest = false)
    (hleast : ∀ other ∈ history.newest after, isUnconfirmed other = false →
      history.stamp oldest ≤ history.stamp other) :
    history.Reaches (n + 1) after raw ↔
      raw ∈ history.newest after ∧ isUnconfirmed raw = false ∨
        history.Reaches n (history.stamp oldest) raw := by
  constructor
  · intro h
    cases h with
    | page hmem hconf => exact Or.inl ⟨hmem, hconf⟩
    | @hop _ _ between _ hmem hbetween hrest =>
      obtain ⟨hraw, hrawConf, hlt⟩ := hrest.spec
      rcases lt_or_ge (history.stamp raw) (history.stamp oldest) with hbehind | hahead
      · exact Or.inr (hrest.of_cursor_le (hleast between hmem hbetween) hbehind)
      · have hafter := hlt.trans (mem_newest.1 hmem).2.1
        exact Or.inl ⟨mem_newest_of_le holdest hraw hahead hafter, hrawConf⟩
  · rintro (⟨hmem, hrawConf⟩ | h)
    · exact .page hmem hrawConf
    · exact .hop holdest hconf h

/-- A page that is not full holds all the candles behind the cursor. -/
theorem mem_newest_of_short {after : ℤ} {raw : RawRow}
    (h : (history.newest after).length < pageLimit) (hraw : raw ∈ history.rows)
    (hlt : history.stamp raw < after) : raw ∈ history.newest after := by
  rw [newest, List.length_take, min_lt_iff] at h
  rw [newest, List.take_of_length_le (h.resolve_left (lt_irrefl _)).le]
  exact List.mem_filter.2 ⟨hraw, by simpa using hlt⟩

/-! ## Reached windows -/

section
variable {provider : Provider} {start_ts end_ts : ℤ}

variable (history) in
/-- Every confirmed candle of the window is reached by the pages from one interval behind its end. -/
def WindowReached (provider : Provider) (intervalMs start_ts end_ts : ℤ) : Prop :=
  ∀ raw ∈ history.rows, isUnconfirmed raw = false →
    start_ts ≤ history.stamp raw → history.stamp raw ≤ end_ts →
    history.Reaches provider.maxPages (end_ts + intervalMs) raw

variable {after : ℤ} {raw between : RawRow} {n : ℕ}

theorem newer_between (h : between ∈ history.rows) (hraw : history.stamp raw < history.stamp between)
    (hafter : history.stamp between < after) :
    history.newer raw after =
      history.newer raw (history.stamp between) + 1 + history.newer between after := by
  obtain ⟨front, back, hrows⟩ := List.append_of_mem h
  have hdescending := history.newestFirst
  rw [hrows, List.pairwise_append, List.pairwise_cons] at hdescending
  obtain ⟨-, ⟨hback, -⟩, hfront⟩ := hdescending
  have hfront := fun other hother => hfront other hother between List.mem_cons_self
  have hahead : front.countP (fun other => history.stamp raw < history.stamp other ∧
      history.stamp other < after) = front.countP fun other =>
        history.stamp between < history.stamp other ∧ history.stamp other < after := by
    refine List.countP_congr fun other hother => ?_
    have := hfront other hother
    simp only [decide_eq_true_eq]
    omega
  have hbehind : back.countP (fun other => history.stamp raw < history.stamp other ∧
      history.stamp other < after) = back.countP fun other =>
        history.stamp raw < history.stamp other ∧ history.stamp other < history.stamp between := by
    refine List.countP_congr fun other hother => ?_
    have := hback other hother
    simp only [decide_eq_true_eq]
    omega
  have hnoneAhead : front.countP (fun other => history.stamp raw < history.stamp other ∧
      history.stamp other < history.stamp between) = 0 := by
    refine List.countP_eq_zero.2 fun other hother => ?_
    have := hfront other hother
    simp only [decide_eq_true_eq]
    omega
  have hnoneBehind : back.countP (fun other => history.stamp between < history.stamp other ∧
      history.stamp other < after) = 0 := by
    refine List.countP_eq_zero.2 fun other hother => ?_
    have := hback other hother
    simp only [decide_eq_true_eq]
    omega
  have hself : (history.stamp raw < history.stamp between ∧ history.stamp between < after) = True :=
    eq_true ⟨hraw, hafter⟩
  simp only [newer, hrows, List.countP_append, List.countP_cons, hahead, hbehind, hnoneAhead,
    hnoneBehind, hself, lt_irrefl, and_false, false_and, decide_false, decide_true, if_true]
  simp only [Bool.false_eq_true, if_false]
  omega

/-- What `n` pages reach has fewer candles before it than `n` pages hold. -/
theorem Reaches.newer_lt (h : history.Reaches n after raw) :
    history.newer raw after < n * pageLimit := by
  induction h with
  | @page n after raw hmem _ =>
    have := (mem_newest.1 hmem).2.2
    rw [Nat.succ_mul]
    omega
  | @hop n after between raw hmem _ hrest ih =>
    obtain ⟨hrow, hlt, hcount⟩ := mem_newest.1 hmem
    rw [newer_between hrow hrest.spec.2.2 hlt, Nat.succ_mul]
    omega

/-- A candle that is not on the page lies behind the last candle of a full page. -/
theorem exists_last_of_page (hraw : raw ∈ history.rows) (hlt : history.stamp raw < after)
    (h : raw ∉ history.newest after) :
    ∃ last ∈ history.newest after, history.stamp raw < history.stamp last ∧
      pageLimit ≤ history.newer last after + 1 := by
  have hlength : pageLimit ≤ (history.newest after).length := by
    by_contra hshort
    exact h (mem_newest_of_short (not_le.1 hshort) hraw hlt)
  have hrows : pageLimit - 1 < (history.rows.filter fun raw => history.stamp raw < after).length := by
    rw [newest, List.length_take] at hlength
    simp only [pageLimit] at hlength ⊢
    omega
  have hdescending := history.newestFirst.filter fun raw => decide (history.stamp raw < after)
  have hlast : (history.rows.filter fun raw => history.stamp raw < after)[pageLimit - 1] ∈
      history.newest after := by
    rw [newest, List.mem_take_iff_getElem]
    exact ⟨pageLimit - 1, by simp only [pageLimit] at hrows ⊢; omega, rfl⟩
  refine ⟨_, hlast, ?_, ?_⟩
  · by_contra hbehind
    exact h (mem_newest_of_le hlast hraw (not_lt.1 hbehind) hlt)
  · by_contra hfew
    have hcount := (mem_take_of_descending hdescending (n := pageLimit - 1)).2
      ⟨List.getElem_mem hrows, by
        rw [List.countP_filter]
        simp only [newer, Bool.decide_and] at hfew
        omega⟩
    obtain ⟨i, hi, heq⟩ := List.mem_take_iff_getElem.1 hcount
    have hi : i < pageLimit - 1 := (lt_min_iff.1 hi).1
    have hlt := List.pairwise_iff_getElem.1 hdescending i (pageLimit - 1) (hi.trans hrows) hrows hi
    rw [heq] at hlt
    exact lt_irrefl _ hlt

variable (history) in
/-- No candle of the history is still forming. -/
def Confirmed : Prop := ∀ raw ∈ history.rows, isUnconfirmed raw = false

theorem Confirmed.reaches (h : history.Confirmed) (hraw : raw ∈ history.rows)
    (hlt : history.stamp raw < after) (hcount : history.newer raw after < n * pageLimit) :
    history.Reaches n after raw := by
  induction n generalizing after with
  | zero => simp at hcount
  | succ n ih =>
    by_cases hpage : raw ∈ history.newest after
    · exact .page hpage (h raw hraw)
    · obtain ⟨last, hlast, hbehind, hfull⟩ := exists_last_of_page hraw hlt hpage
      obtain ⟨hrow, hafter, -⟩ := mem_newest.1 hlast
      refine .hop hlast (h last hrow) (ih hbehind ?_)
      rw [newer_between hrow hbehind hafter, Nat.succ_mul] at hcount
      omega

/-- Where no candle is still forming, the pages reach a window exactly if fewer candles lie before
each of its candles than the pages hold. -/
theorem Confirmed.windowReached_iff (h : history.Confirmed) {intervalMs : ℤ} (hpos : 0 < intervalMs) :
    history.WindowReached provider intervalMs start_ts end_ts ↔
      ∀ raw ∈ history.rows, start_ts ≤ history.stamp raw → history.stamp raw ≤ end_ts →
        history.newer raw (end_ts + intervalMs) < provider.maxPages * pageLimit := by
  constructor
  · intro hreached raw hraw hstart hend
    exact (hreached raw hraw (h raw hraw) hstart hend).newer_lt
  · intro hcount raw hraw _ hstart hend
    exact h.reaches hraw (by omega) (hcount raw hraw hstart hend)

variable (history) in
/-- Two candles are at least one interval apart. -/
def Spaced (intervalMs : ℤ) : Prop :=
  history.rows.Pairwise fun a b => history.stamp b + intervalMs ≤ history.stamp a

theorem length_mul_le_of_spaced {intervalMs : ℤ} {rows : List RawRow} {low : ℤ} {stamp : RawRow → ℤ}
    (h : rows.Pairwise fun a b => stamp b + intervalMs ≤ stamp a)
    (hlow : ∀ raw ∈ rows, low + intervalMs ≤ stamp raw) (first : RawRow)
    (hfirst : rows.head? = some first) : low + rows.length * intervalMs ≤ stamp first := by
  induction rows generalizing first with
  | nil => simp at hfirst
  | cons raw rows ih =>
    obtain ⟨hraw, hrows⟩ := List.pairwise_cons.1 h
    cases hfirst
    cases rows with
    | nil => simpa using hlow raw List.mem_cons_self
    | cons next rest =>
      have hnext := ih hrows (fun other hother => hlow other (List.mem_cons_of_mem _ hother)) next rfl
      have hstep := hraw next List.mem_cons_self
      simp only [List.length_cons, Nat.cast_add, Nat.cast_one] at hnext ⊢
      linarith

theorem Spaced.newer_mul_lt {intervalMs : ℤ} (h : history.Spaced intervalMs)
    (hraw : raw ∈ history.rows) (hlt : history.stamp raw < after) :
    history.newer raw after * intervalMs < after - history.stamp raw := by
  rw [newer, List.countP_eq_length_filter]
  cases hrows : history.rows.filter fun other =>
      decide (history.stamp raw < history.stamp other ∧ history.stamp other < after) with
  | nil => simpa using hlt
  | cons first rest =>
    have hmem : ∀ other ∈ first :: rest, other ∈ history.rows ∧
        history.stamp raw < history.stamp other ∧ history.stamp other < after := by
      intro other hother
      rw [← hrows, List.mem_filter, decide_eq_true_eq] at hother
      exact hother
    have hspaced := List.Pairwise.filter (fun other => decide
      (history.stamp raw < history.stamp other ∧ history.stamp other < after)) h
    rw [hrows] at hspaced
    have hlow : ∀ other ∈ first :: rest, history.stamp raw + intervalMs ≤ history.stamp other := by
      intro other hother
      obtain ⟨hother, hahead, -⟩ := hmem other hother
      obtain ⟨i, hi, rfl⟩ := List.getElem_of_mem hraw
      obtain ⟨j, hj, rfl⟩ := List.getElem_of_mem hother
      rcases lt_trichotomy i j with hij | rfl | hij
      · have := List.pairwise_iff_getElem.1 history.newestFirst i j hi hj hij
        omega
      · exact absurd hahead (lt_irrefl _)
      · exact List.pairwise_iff_getElem.1 h j i hj hi hij
    have hle := length_mul_le_of_spaced hspaced hlow first rfl
    have hbound := (hmem first List.mem_cons_self).2.2
    linarith

end

end History
end ResearchLab.Providers
