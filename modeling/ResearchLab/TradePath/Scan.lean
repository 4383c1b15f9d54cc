import Mathlib
import ResearchLab.TradePath.Rejects

/-!
# The scan of rejected rows

`_characterize_reject_rows` takes the rows run by run, so that each `metrics.json` is read once. It
hands over what it has finished at checkpoints and may yield between two rows.
-/
namespace ResearchLab.TradePath
open Foundation

variable {π : Type} {paramsHash : π → String} {artifacts : Artifacts π}

/-- When a scan hands over its pairs, and when it yields: `shouldYield` gets the number of times
that it has been asked besides its arguments. -/
structure Pace where
  checkpointRows : ℕ := 0
  shouldYield : ℕ → ℕ → ℕ → Bool := fun _ _ _ => false

/-- The variables of the loops. -/
structure Slice where
  rows : List (Option Characterization)
  processed : ℕ := 0
  asked : ℕ := 0
  /-- `completed_pairs`. -/
  pending : List (UniqueCandidate × Characterization) := []
  /-- The arguments of `on_group_complete`. -/
  checkpoints : List (List (UniqueCandidate × Characterization)) := []

/-- `if completed_pairs: on_group_complete(completed_pairs)`. -/
def Slice.flush (s : Slice) : Slice :=
  if s.pending = [] then s else { s with checkpoints := s.checkpoints ++ [s.pending], pending := [] }

/-- A row is done. -/
def Slice.record (s : Slice) (m : ℕ × UniqueCandidate) (row : Characterization) : Slice :=
  { s with
    rows := s.rows.set m.1 (some row)
    pending := s.pending ++ [(m.2, row)]
    processed := s.processed + 1 }

/-- `if checkpoint_rows and len(completed_pairs) >= checkpoint_rows`. -/
def Slice.checkpoint (pace : Pace) (s : Slice) : Slice :=
  if pace.checkpointRows ≠ 0 ∧ pace.checkpointRows ≤ s.pending.length then s.flush else s

/-- A row of the group of a run whose results are `results`. -/
def memberStep (pace : Pace) (total : ℕ) (results : String → Option (RunResult π)) (s : Slice)
    (m : ℕ × UniqueCandidate) : Except Slice Slice :=
  let row := characterize m.2 (factsOf m.2 (results (text m.2.paramsHash)))
  let s := (s.record m row).checkpoint pace
  if pace.shouldYield s.asked s.processed total then .error { s.flush with asked := s.asked + 1 }
  else .ok { s with asked := s.asked + 1 }

/-- The group of a run: its artifact is read, its rows follow, and what is left is handed over. -/
def groupStep (paramsHash : π → String) (artifacts : Artifacts π) (pace : Pace) (total : ℕ)
    (s : Slice) (g : String × List (ℕ × UniqueCandidate)) : Except Slice Slice :=
  if pace.shouldYield s.asked s.processed total then .error { s with asked := s.asked + 1 }
  else
    (g.2.foldlM (memberStep pace total (indexRunResults paramsHash artifacts g.1))
      { s with asked := s.asked + 1 }).map Slice.flush

/-- The rows under their indices, in the groups of their labels. -/
def groupsByLabel (uc : List UniqueCandidate) : List (String × List (ℕ × UniqueCandidate)) :=
  groupByKey (fun m => m.2.label) (uc.zipIdx.map Prod.swap)

/-- The loops of `_characterize_reject_rows`: all rows are done, or it yielded. -/
def scanRows (paramsHash : π → String) (artifacts : Artifacts π) (pace : Pace)
    (uc : List UniqueCandidate) : Except Slice Slice :=
  (groupsByLabel uc).foldlM (groupStep paramsHash artifacts pace uc.length)
    { rows := List.replicate uc.length none }

/-- `characterize_rejects`: a scan of all rejected rows without callbacks. -/
def characterizeRejects (paramsHash : π → String) (artifacts : Artifacts π)
    (table : List UniqueCandidate) : Except String (List Characterization) :=
  let uc := loadRejectedUc table
  match scanRows paramsHash artifacts {} uc with
  | .error _ => .error "incremental reject refresh yielded before completion"
  | .ok s =>
      let complete := s.rows.filterMap id
      if complete.length ≠ uc.length then .error "reject characterization lost source rows"
      else .ok complete

/-! ## What a scan has done -/

/-- The result that a row is joined with. -/
def joinedResult (paramsHash : π → String) (artifacts : Artifacts π) (row : UniqueCandidate) :
    Option (RunResult π) :=
  indexRunResults paramsHash artifacts row.label (text row.paramsHash)

/-- What a scan says of a row. -/
def judged (paramsHash : π → String) (artifacts : Artifacts π) (row : UniqueCandidate) :
    Characterization :=
  characterize row (factsOf row (joinedResult paramsHash artifacts row))

/-- The state of a scan of `total` rows that has done the rows `done`, judging them by `judge`. -/
structure Slice.After (judge : UniqueCandidate → Characterization) (total : ℕ)
    (done : List (ℕ × UniqueCandidate)) (s : Slice) : Prop where
  rows : s.rows = done.foldl (fun rows m => rows.set m.1 (some (judge m.2)))
    (List.replicate total none)
  pairs : s.checkpoints.flatten ++ s.pending = done.map fun m => (m.2, judge m.2)
  processed : s.processed = done.length

variable {judge : UniqueCandidate → Characterization} {total : ℕ} {s s' : Slice}
  {done : List (ℕ × UniqueCandidate)}

theorem Slice.flush_rows (s : Slice) : s.flush.rows = s.rows := by
  unfold flush
  split_ifs <;> rfl

theorem Slice.flush_processed (s : Slice) : s.flush.processed = s.processed := by
  unfold flush
  split_ifs <;> rfl

theorem Slice.flush_pairs (s : Slice) :
    s.flush.checkpoints.flatten ++ s.flush.pending = s.checkpoints.flatten ++ s.pending := by
  unfold flush
  split_ifs <;> simp

theorem Slice.After.flush (h : s.After judge total done) : s.flush.After judge total done :=
  ⟨s.flush_rows.trans h.rows, s.flush_pairs.trans h.pairs, s.flush_processed.trans h.processed⟩

theorem Slice.After.ask (h : s.After judge total done) (n : ℕ) :
    { s with asked := n }.After judge total done := ⟨h.rows, h.pairs, h.processed⟩

theorem Slice.After.init (judge : UniqueCandidate → Characterization) (total : ℕ) :
    Slice.After judge total [] { rows := List.replicate total none } := ⟨rfl, rfl, rfl⟩

theorem Slice.After.record (h : s.After judge total done) (m : ℕ × UniqueCandidate) :
    (s.record m (judge m.2)).After judge total (done ++ [m]) where
  rows := by rw [List.foldl_append, ← h.rows]; rfl
  pairs := by
    rw [List.map_append, ← h.pairs, List.append_assoc]
    rfl
  processed := by rw [List.length_append, ← h.processed]; rfl

theorem Slice.After.checkpoint (h : s.After judge total done) (pace : Pace) :
    (s.checkpoint pace).After judge total done := by
  unfold Slice.checkpoint
  split_ifs
  · exact h.flush
  · exact h

/-- From `done` a step goes on to `done ++ ms`, or it yields on the way. -/
def Reaches (judge : UniqueCandidate → Characterization) (total : ℕ)
    (done ms : List (ℕ × UniqueCandidate)) : Except Slice Slice → Prop
  | .ok s => s.After judge total (done ++ ms)
  | .error s => ∃ ms', ms' <+: ms ∧ s.After judge total (done ++ ms')

theorem memberStep_reaches {pace : Pace} {results : String → Option (RunResult π)}
    (h : s.After judge total done) (m : ℕ × UniqueCandidate)
    (hm : characterize m.2 (factsOf m.2 (results (text m.2.paramsHash))) = judge m.2) :
    Reaches judge total done [m] (memberStep pace total results s m) := by
  have hafter := (h.record m).checkpoint pace
  simp only [memberStep, hm]
  generalize (s.record m (judge m.2)).checkpoint pace = t at hafter ⊢
  cases pace.shouldYield t.asked t.processed total with
  | true => exact ⟨[m], List.prefix_rfl, hafter.flush.ask _⟩
  | false => exact hafter.ask _

theorem Reaches.nil (h : s.After judge total done) : Reaches judge total done [] (.ok s) := by
  simpa [Reaches] using h

/-- One step after another. -/
theorem Reaches.bind {ms ms' : List (ℕ × UniqueCandidate)} {r : Except Slice Slice}
    {f : Slice → Except Slice Slice} (h : Reaches judge total done ms r)
    (hf : ∀ t : Slice, t.After judge total (done ++ ms) → Reaches judge total (done ++ ms) ms' (f t)) :
    Reaches judge total done (ms ++ ms') (r.bind f) := by
  cases r with
  | error t =>
    obtain ⟨left, hsub, hafter⟩ := h
    exact ⟨left, hsub.trans (List.prefix_append ms ms'), hafter⟩
  | ok t =>
    have hgo := hf t h
    change Reaches judge total done (ms ++ ms') (f t)
    cases hend : f t with
    | error u =>
      rw [hend] at hgo
      obtain ⟨left, hsub, hafter⟩ := hgo
      refine ⟨ms ++ left, (List.prefix_append_right_inj ms).2 hsub, ?_⟩
      rwa [← List.append_assoc]
    | ok u =>
      rw [hend] at hgo
      change u.After judge total (done ++ (ms ++ ms'))
      rwa [← List.append_assoc]

theorem members_reach {pace : Pace} {results : String → Option (RunResult π)}
    {ms : List (ℕ × UniqueCandidate)} (h : s.After judge total done)
    (hms : ∀ m ∈ ms, characterize m.2 (factsOf m.2 (results (text m.2.paramsHash))) = judge m.2) :
    Reaches judge total done ms (ms.foldlM (memberStep pace total results) s) := by
  induction ms generalizing s done with
  | nil => exact .nil h
  | cons m ms ih =>
    obtain ⟨hm, hrest⟩ := List.forall_mem_cons.1 hms
    rw [List.foldlM_cons]
    exact (memberStep_reaches h m hm).bind fun t ht => ih ht hrest

theorem Reaches.flush {ms : List (ℕ × UniqueCandidate)} {r : Except Slice Slice}
    (h : Reaches judge total done ms r) : Reaches judge total done ms (r.map Slice.flush) := by
  cases r with
  | error t => exact h
  | ok t => exact Slice.After.flush h

theorem groupStep_reaches {pace : Pace} {g : String × List (ℕ × UniqueCandidate)}
    (h : s.After (judged paramsHash artifacts) total done) (hg : ∀ m ∈ g.2, m.2.label = g.1) :
    Reaches (judged paramsHash artifacts) total done g.2
      (groupStep paramsHash artifacts pace total s g) := by
  unfold groupStep
  split_ifs
  · refine ⟨[], List.nil_prefix, ?_⟩
    rw [List.append_nil]
    exact h.ask _
  · refine (members_reach (h.ask _) fun m hm => ?_).flush
    rw [judged, joinedResult, hg m hm]

theorem groups_reach {pace : Pace} {gs : List (String × List (ℕ × UniqueCandidate))}
    (h : s.After (judged paramsHash artifacts) total done)
    (hgs : ∀ g ∈ gs, ∀ m ∈ g.2, m.2.label = g.1) :
    Reaches (judged paramsHash artifacts) total done (groupMembers gs)
      (gs.foldlM (groupStep paramsHash artifacts pace total) s) := by
  induction gs generalizing s done with
  | nil => exact .nil h
  | cons g gs ih =>
    obtain ⟨hg, hrest⟩ := List.forall_mem_cons.1 hgs
    rw [List.foldlM_cons]
    exact (groupStep_reaches h hg).bind fun t ht => ih ht hrest

/-- A scan judges rows one after another, whatever its pace. -/
theorem scanRows_reaches (paramsHash : π → String) (artifacts : Artifacts π) (pace : Pace)
    (uc : List UniqueCandidate) :
    Reaches (judged paramsHash artifacts) uc.length [] (groupMembers (groupsByLabel uc))
      (scanRows paramsHash artifacts pace uc) :=
  groups_reach (.init _ _) fun _ hg => key_of_mem_groupByKey hg

/-! ## A whole scan -/

theorem groupsByLabel_perm (uc : List UniqueCandidate) :
    (groupMembers (groupsByLabel uc)).Perm (uc.zipIdx.map Prod.swap) := groupByKey_perm _ _

theorem mem_groupsByLabel {uc : List UniqueCandidate} {m : ℕ × UniqueCandidate} :
    m ∈ groupMembers (groupsByLabel uc) ↔ uc[m.1]? = some m.2 := by
  rw [(groupsByLabel_perm uc).mem_iff]
  constructor
  · intro h
    obtain ⟨p, hp, rfl⟩ := List.mem_map.1 h
    exact List.mem_zipIdx_iff_getElem?.1 hp
  · intro h
    exact List.mem_map.2 ⟨(m.2, m.1), List.mem_zipIdx_iff_getElem?.2 h, rfl⟩

/-- Writes of the values of `f` at the places of their arguments: what is written somewhere is the
value there, and the other places stay. -/
theorem getElem?_foldl_set {α β : Type} {f : α → β} {l : List α} {ms : List (ℕ × α)}
    (hms : ∀ m ∈ ms, l[m.1]? = some m.2) {rows : List (Option β)} (hlen : rows.length = l.length)
    (i : ℕ) :
    (ms.foldl (fun rows m => rows.set m.1 (some (f m.2))) rows)[i]? =
      if i ∈ ms.map Prod.fst then l[i]?.map fun a => some (f a) else rows[i]? := by
  induction ms generalizing rows with
  | nil => rfl
  | cons m ms ih =>
    obtain ⟨hm, hrest⟩ := List.forall_mem_cons.1 hms
    rw [List.foldl_cons, ih hrest (by rw [List.length_set, hlen]), List.map_cons]
    by_cases hi : i ∈ ms.map Prod.fst
    · rw [if_pos hi, if_pos (List.mem_cons_of_mem _ hi)]
    · rw [if_neg hi]
      obtain rfl | hne := eq_or_ne i m.1
      · obtain ⟨hlt, -⟩ := List.getElem?_eq_some_iff.1 hm
        rw [if_pos List.mem_cons_self, List.getElem?_set_self (by omega), hm]
        rfl
      · rw [List.getElem?_set_ne hne.symm, if_neg fun h => (List.mem_cons.1 h).elim hne hi]

/-- All places are written. -/
theorem foldl_set_eq {α β : Type} (f : α → β) (l : List α) {ms : List (ℕ × α)}
    (hms : ∀ m : ℕ × α, m ∈ ms ↔ l[m.1]? = some m.2) :
    ms.foldl (fun rows m => rows.set m.1 (some (f m.2))) (List.replicate l.length none) =
      l.map fun a => some (f a) := by
  refine List.ext_getElem? fun i => ?_
  rw [getElem?_foldl_set (fun m hm => (hms m).1 hm) List.length_replicate, List.getElem?_map]
  split_ifs with hi
  · rfl
  · have hout : l.length ≤ i := by
      by_contra hlt
      refine hi (List.mem_map.2 ⟨(i, l[i]), (hms _).2 ?_, rfl⟩)
      exact List.getElem?_eq_getElem (by omega)
    rw [List.getElem?_eq_none (by simpa using hout), List.getElem?_eq_none hout]
    rfl

/-- A scan that does not yield judges every row, in the order of the rows. -/
theorem rows_of_scanRows {pace : Pace} {uc : List UniqueCandidate} {s : Slice}
    (h : scanRows paramsHash artifacts pace uc = .ok s) :
    s.rows = uc.map fun row => some (judged paramsHash artifacts row) := by
  have hreach := scanRows_reaches paramsHash artifacts pace uc
  rw [h] at hreach
  rw [hreach.rows, List.nil_append]
  exact foldl_set_eq _ uc fun m => mem_groupsByLabel

/-- A loop none of whose steps fails. -/
theorem foldlM_ok {α σ ε : Type} {f : σ → α → Except ε σ} (hf : ∀ s a, ∃ t, f s a = .ok t)
    (l : List α) (s : σ) : ∃ t, l.foldlM f s = .ok t := by
  induction l generalizing s with
  | nil => exact ⟨s, rfl⟩
  | cons a l ih =>
    obtain ⟨t, ht⟩ := hf s a
    rw [List.foldlM_cons, ht]
    exact ih t

/-- Without callbacks a scan does not yield. -/
theorem scanRows_ok (paramsHash : π → String) (artifacts : Artifacts π)
    (uc : List UniqueCandidate) : ∃ s, scanRows paramsHash artifacts {} uc = .ok s := by
  refine foldlM_ok (fun s g => ?_) _ _
  obtain ⟨t, ht⟩ := foldlM_ok (f := memberStep {} uc.length (indexRunResults paramsHash artifacts g.1))
    (fun s m => ⟨_, by rw [memberStep]; exact if_neg Bool.false_ne_true⟩) g.2
    { s with asked := s.asked + 1 }
  rw [groupStep, if_neg Bool.false_ne_true, ht]
  exact ⟨t.flush, rfl⟩

/-- The full scan judges the rejected rows, in their order. -/
theorem characterizeRejects_eq (paramsHash : π → String) (artifacts : Artifacts π)
    (table : List UniqueCandidate) :
    characterizeRejects paramsHash artifacts table =
      .ok ((loadRejectedUc table).map (judged paramsHash artifacts)) := by
  obtain ⟨s, hs⟩ := scanRows_ok paramsHash artifacts (loadRejectedUc table)
  have hrows : s.rows.filterMap id = (loadRejectedUc table).map (judged paramsHash artifacts) := by
    rw [rows_of_scanRows hs, List.filterMap_map]
    exact congrFun List.filterMap_eq_map' _
  simp only [characterizeRejects, hs, hrows, List.length_map, ne_eq, not_true_eq_false, if_false]

end ResearchLab.TradePath
