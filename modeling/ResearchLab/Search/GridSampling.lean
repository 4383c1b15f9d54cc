import ResearchLab.Foundation.Keyed
import ResearchLab.Foundation.MixedRadix
import ResearchLab.Search.Definition

/-!
# Bounded sampling of a grid

`expand_grids_bounded`: the points of a merged grid by their flat indices, the valid ones among
them, and a sample of those. The sample first covers the neighbours of a baseline and is then filled
up by a random generator, whose choices are part of the request.
-/
namespace ResearchLab.Search
open Foundation

variable {β : Type}

abbrev Params (β : Type) := List (String × β)

/-- Why a point is not valid. -/
inductive Refusal | schema | dependency
  deriving DecidableEq

def Refusal.disposition : Refusal → PreDisposition
  | schema => .schemaInvalid
  | dependency => .dependencyInvalid

/-- A call of `expand_grids_bounded`. `baseline` is `baseline.get`, `same` is what `in` and `index`
compare by, `refusal` the schema and the rules of the strategy, and `choice` what the generator
chooses from the valid indices. -/
structure GridRequest (β : Type) where
  grids : List (List (String × List β))
  cap : ℤ
  baseline : String → β
  same : β → β → Bool
  refusal : Params β → Option (Refusal × String)
  choice : ℕ → ℕ

structure SearchSpaceAudit (β : Type) where
  axisOrder : List String
  cartesianTotal : ℕ
  eligibleTotal : ℕ
  selectedTotal : ℕ
  omittedInvalid : ℕ
  omittedByVariantCap : ℕ
  selectedFlatIndices : List ℕ
  points : List (Point (Params β))
  pointLedger : PointLedger
  selectedPoints : List (Point (Params β))

structure Sample (β : Type) where
  variants : List (Params β)
  audit : SearchSpaceAudit β

/-- The two `ValueError`s. -/
inductive GridError
  | baselineInvalid (detail : String)
  | noVariants
  deriving DecidableEq

namespace GridRequest

variable (req : GridRequest β)

/-- `merged`, by its sorted keys: the last values of each key that are not empty. -/
def axes : List (String × List β) := lastByKey Prod.fst (req.grids.flatten.filter (!·.2.isEmpty))

def sizes : List ℕ := req.axes.map fun axis => axis.2.length

def total : ℕ := req.sizes.prod

/-- `decode`. -/
def decode (flatIndex : ℕ) : Params β :=
  (req.axes.zip (digitsOf req.sizes flatIndex)).filterMap fun e => (e.1.2[e.2]?).map (e.1.1, ·)

def validIndices : List ℕ := (List.range req.total).filter fun i => (req.refusal (req.decode i)).isNone

def limit : ℕ := min req.validIndices.length (max 1 req.cap.toNat)

/-- The offsets of the baseline; zero where an axis does not have its value. -/
def offsets : List ℕ :=
  req.axes.map fun axis => (axis.2.findIdx? (req.same (req.baseline axis.1))).getD 0

def flatIndex (parts : List ℕ) : ℕ := ofDigits req.sizes parts

def baselineIndex : ℕ := req.flatIndex req.offsets

/-- `sorted({0, offset, last})` of an axis. -/
def coverageLevels (axis : ℕ) : List ℕ :=
  sortOn id [0, req.offsets.getD axis 0, req.sizes.getD axis 1 - 1].dedup

/-- The points that differ from the baseline at one axis, by the levels of the axis. -/
def neighbours (axis : ℕ) : List ℕ :=
  (req.coverageLevels axis).map fun level => req.flatIndex (req.offsets.set axis level)

/-- `if index in valid_indices and index not in mandatory: mandatory.append(index)`. -/
def addMandatory (mandatory : List ℕ) (index : ℕ) : List ℕ :=
  if index ∈ req.validIndices ∧ index ∉ mandatory then mandatory ++ [index] else mandatory

/-- The levels of one axis; the loop ends where the limit is reached. -/
def coverLevels (mandatory : List ℕ) : List ℕ → List ℕ
  | [] => mandatory
  | index :: rest =>
      if req.limit ≤ (req.addMandatory mandatory index).length then req.addMandatory mandatory index
      else coverLevels (req.addMandatory mandatory index) rest

/-- The axes; the loop ends where the limit is reached. -/
def coverAxes (mandatory : List ℕ) : List (List ℕ) → List ℕ
  | [] => mandatory
  | levels :: rest =>
      if req.limit ≤ (req.coverLevels mandatory levels).length then req.coverLevels mandatory levels
      else coverAxes (req.coverLevels mandatory levels) rest

def mandatory : List ℕ :=
  req.coverAxes (req.addMandatory [] req.baselineIndex)
    ((List.range req.axes.length).map req.neighbours)

/-- `set.add`. -/
def addChosen (chosen : List ℕ) (index : ℕ) : List ℕ :=
  if index ∈ chosen then chosen else chosen ++ [index]

/-- `while len(chosen) < limit: chosen.add(rng.choice(valid_indices))`, from the choice at `k`. -/
def fill (k : ℕ) (chosen : List ℕ) : ℕ → Option (List ℕ)
  | 0 => if req.limit ≤ chosen.length then some chosen else none
  | fuel + 1 =>
      if req.limit ≤ chosen.length then some chosen
      else fill (k + 1) (addChosen chosen (req.choice k)) fuel

def indices (fuel : ℕ) : Option (List ℕ) :=
  if req.validIndices.length ≤ req.limit then some req.validIndices
  else (req.fill 0 req.mandatory fuel).map (sortOn id)

/-- The disposition of a point, and the reason for it. -/
def disposition (selected : List ℕ) (index : ℕ) : PreDisposition × String :=
  match req.refusal (req.decode index) with
  | some (refusal, reason) => (refusal.disposition, reason)
  | none =>
      if index ∈ selected then (.selected, "selected_by_sampler")
      else (.omittedVariantCap, "eligible_not_selected_by_cap")

def point (selected : List ℕ) (index : ℕ) : Point (Params β) where
  flatIndex := index
  family := ""
  params := req.decode index
  preDisposition := (req.disposition selected index).1
  reason := (req.disposition selected index).2

end GridRequest

def dispositionCount (points : List (Point (Params β))) (d : PreDisposition) : ℤ :=
  (points.countP fun point => point.preDisposition = d : ℕ)

/-- `_compact_point_ledger`, and what the loop over the points counts. -/
def ledgerOf (points : List (Point (Params β))) : PointLedger where
  recordCount := points.length
  dispositionCounts :=
    { selected := dispositionCount points .selected
      schemaInvalid := dispositionCount points .schemaInvalid
      dependencyInvalid := dispositionCount points .dependencyInvalid
      omittedVariantCap := dispositionCount points .omittedVariantCap }
  reasonCounts := (sortOn id (points.map Point.reason).dedup).map fun reason =>
    (reason, ((points.map Point.reason).count reason : ℕ))

namespace GridRequest

variable (req : GridRequest β)

def audit (selected : List ℕ) : SearchSpaceAudit β :=
  let points := (List.range req.total).map (req.point selected)
  { axisOrder := req.axes.map Prod.fst
    cartesianTotal := req.total
    eligibleTotal := req.validIndices.length
    selectedTotal := req.limit
    omittedInvalid := req.total - req.validIndices.length
    omittedByVariantCap := req.validIndices.length - req.limit
    selectedFlatIndices := selected
    points := points
    pointLedger := ledgerOf points
    selectedPoints := points.filter fun point => point.preDisposition = .selected }

/-- The one point of a grid without axes. -/
def emptyAudit : SearchSpaceAudit β :=
  let points : List (Point (Params β)) := [⟨0, "", [], .selected, "selected_by_sampler"⟩]
  { axisOrder := []
    cartesianTotal := 1
    eligibleTotal := 1
    selectedTotal := 1
    omittedInvalid := 0
    omittedByVariantCap := 0
    selectedFlatIndices := [0]
    points := points
    pointLedger := ledgerOf points
    selectedPoints := points }

/-- `expand_grids_bounded`, where the generator is asked at most so many times. -/
def expandGridsBounded (fuel : ℕ) : Option (Except GridError (Sample β)) :=
  if req.axes = [] then
    match req.refusal [] with
    | some (_, detail) => some (.error (.baselineInvalid detail))
    | none => some (.ok ⟨[[]], emptyAudit⟩)
  else if req.validIndices = [] then some (.error .noVariants)
  else (req.indices fuel).map fun indices =>
    .ok ⟨indices.map req.decode, req.audit indices⟩

end GridRequest
/-! ## The grid -/

namespace GridRequest

variable {req : GridRequest β} {i fuel k : ℕ} {l chosen parts : List ℕ}

theorem axis_ne_nil {axis : String × List β} (h : axis ∈ req.axes) : axis.2 ≠ [] := by
  have hmem := (List.mem_filter.1 (mem_of_mem_lastByKey h)).2
  simpa using hmem

theorem size_pos {size : ℕ} (h : size ∈ req.sizes) : 0 < size := by
  obtain ⟨axis, haxis, rfl⟩ := List.mem_map.1 h
  exact List.length_pos_of_ne_nil (axis_ne_nil haxis)

theorem total_pos : 0 < req.total := List.prod_pos fun _ => size_pos

theorem mem_validIndices :
    i ∈ req.validIndices ↔ i < req.total ∧ req.refusal (req.decode i) = none := by
  simp [validIndices, List.mem_filter]

theorem validIndices_pairwise : req.validIndices.Pairwise (· < ·) :=
  List.pairwise_lt_range.filter _

theorem validIndices_nodup : req.validIndices.Nodup :=
  validIndices_pairwise.imp fun h => h.ne

variable (req) in
theorem limit_le : req.limit ≤ req.validIndices.length := min_le_left _ _

theorem limit_pos (h : req.validIndices ≠ []) : 0 < req.limit :=
  lt_min (List.length_pos_of_ne_nil h) (by omega)

/-- A flat index is that of its digits, and its digits are below the sizes. -/
theorem flatIndex_digitsOf (h : i < req.total) : req.flatIndex (digitsOf req.sizes i) = i :=
  ofDigits_digitsOf (fun _ => size_pos) h

theorem digitsOf_flatIndex (h : AreDigits req.sizes parts) :
    digitsOf req.sizes (req.flatIndex parts) = parts := digitsOf_ofDigits h

/-! ## What is covered first -/

/-- The valid ones of the baseline and its neighbours, in the order of the axes. -/
def coverageOrder (req : GridRequest β) : List ℕ :=
  (req.baselineIndex :: ((List.range req.axes.length).flatMap req.neighbours)).foldl
    req.addMandatory []

theorem prefix_addMandatory (l : List ℕ) (i : ℕ) : l <+: req.addMandatory l i := by
  unfold addMandatory
  split
  · exact List.prefix_append _ _
  · exact List.prefix_rfl

variable (req) in
theorem prefix_foldl_addMandatory (l is : List ℕ) : l <+: is.foldl req.addMandatory l := by
  induction is generalizing l with
  | nil => exact List.prefix_rfl
  | cons i is ih => exact (prefix_addMandatory l i).trans (ih _)

variable (req) in
theorem length_addMandatory_le (l : List ℕ) (i : ℕ) :
    (req.addMandatory l i).length ≤ l.length + 1 := by
  unfold addMandatory
  split
  · simp
  · omega

/-- A list that is as long as the limit is the beginning of whatever is added to it. -/
theorem eq_take_of_prefix {l l' : List ℕ} (h : l <+: l') {n : ℕ} (hn : l.length = n) :
    l = l'.take n := by
  obtain ⟨rest, rfl⟩ := h
  rw [← hn, List.take_left']
  rfl

/-- The loop over the levels stops where the limit is reached: it yields the beginning of what it
would add. -/
theorem coverLevels_eq_take {l is : List ℕ} (h : l.length < req.limit) :
    req.coverLevels l is = (is.foldl req.addMandatory l).take req.limit := by
  induction is generalizing l with
  | nil => exact (List.take_of_length_le h.le).symm
  | cons i is ih =>
      rw [coverLevels, List.foldl_cons]
      have hlength := length_addMandatory_le req l i
      split
      · exact eq_take_of_prefix (prefix_foldl_addMandatory req _ _) (by omega)
      · exact ih (by omega)

theorem coverAxes_eq_take {l : List ℕ} {lss : List (List ℕ)} (h : l.length < req.limit) :
    req.coverAxes l lss = (lss.flatten.foldl req.addMandatory l).take req.limit := by
  induction lss generalizing l with
  | nil => exact (List.take_of_length_le h.le).symm
  | cons ls lss ih =>
      rw [coverAxes, List.flatten_cons, List.foldl_append, coverLevels_eq_take h]
      split
      · rename_i hfull
        have hlength : req.limit ≤ (ls.foldl req.addMandatory l).length := by
          rw [List.length_take] at hfull
          omega
        obtain ⟨rest, hrest⟩ :=
          prefix_foldl_addMandatory req (ls.foldl req.addMandatory l) lss.flatten
        rw [← hrest, List.take_append_of_le_length hlength]
      · rename_i hfull
        have hall : (ls.foldl req.addMandatory l).take req.limit = ls.foldl req.addMandatory l := by
          rw [List.length_take] at hfull
          exact List.take_of_length_le (by omega)
        rw [hall] at hfull ⊢
        exact ih (by omega)

variable (req) in
theorem coverageLevels_eq_cons (axis : ℕ) : ∃ rest, req.coverageLevels axis = 0 :: rest := by
  have hmem : 0 ∈ req.coverageLevels axis := by simp [coverageLevels, mem_sortOn]
  have hpairwise : (req.coverageLevels axis).Pairwise fun a b => a ≤ b := sortOn_pairwise id _
  cases hlevels : req.coverageLevels axis with
  | nil =>
      rw [hlevels] at hmem
      cases hmem
  | cons level rest =>
      rw [hlevels] at hmem hpairwise
      obtain hzero | hrest := List.mem_cons.1 hmem
      · exact ⟨rest, by rw [hzero]⟩
      · have hle := (List.pairwise_cons.1 hpairwise).1 0 hrest
        exact ⟨rest, by rw [Nat.le_zero.1 hle]⟩

/-- The point that differs from the baseline by the first level of the first axis. -/
def firstNeighbour (req : GridRequest β) : ℕ := req.flatIndex (req.offsets.set 0 0)

/-- Only one point is asked for, the baseline is valid, and so is another point, its neighbour at
the first level of the first axis. -/
structure Overflows (req : GridRequest β) : Prop where
  limit : req.limit = 1
  baseline : req.baselineIndex ∈ req.validIndices
  neighbour : req.firstNeighbour ∈ req.validIndices
  other : req.firstNeighbour ≠ req.baselineIndex

/-- The covered points are the first of the coverage order. -/
theorem mandatory_eq_take (hvalid : req.validIndices ≠ []) (hover : ¬req.Overflows)
    (haxes : req.axes ≠ []) : req.mandatory = req.coverageOrder.take req.limit := by
  have horder : req.coverageOrder =
      ((List.range req.axes.length).map req.neighbours).flatten.foldl req.addMandatory
        (req.addMandatory [] req.baselineIndex) := by
    rw [coverageOrder, List.foldl_cons, List.flatMap_def]
  rw [horder, mandatory]
  by_cases hroom : (req.addMandatory [] req.baselineIndex).length < req.limit
  · exact coverAxes_eq_take hroom
  -- the baseline fills the sample by itself
  have hlength := length_addMandatory_le req [] req.baselineIndex
  have hlimit : req.limit = 1 := by
    have := limit_pos hvalid
    simp only [List.length_nil] at hlength
    omega
  have hbaseline : req.baselineIndex ∈ req.validIndices := by
    by_contra hbaseline
    simp [addMandatory, hbaseline, hlimit] at hroom
  have hadd : req.addMandatory [] req.baselineIndex = [req.baselineIndex] := by
    simp [addMandatory, hbaseline]
  obtain ⟨n, hn⟩ := Nat.exists_eq_succ_of_ne_zero
    (List.length_pos_of_ne_nil haxes).ne'
  obtain ⟨levels, hlevels⟩ := coverageLevels_eq_cons req 0
  have hneighbour : req.addMandatory [req.baselineIndex] req.firstNeighbour =
      [req.baselineIndex] := by
    unfold addMandatory
    refine if_neg fun h => hover ⟨hlimit, hbaseline, h.1, ?_⟩
    simpa using h.2
  have hfirst : req.neighbours 0 =
      req.firstNeighbour :: levels.map fun level => req.flatIndex (req.offsets.set 0 level) := by
    rw [neighbours, hlevels]
    rfl
  have hcover : req.coverLevels [req.baselineIndex] (req.neighbours 0) = [req.baselineIndex] := by
    rw [hfirst, coverLevels, hneighbour, hlimit]
    exact if_pos le_rfl
  rw [hadd, hn, List.range_succ_eq_map, List.map_cons, coverAxes, hcover, hlimit,
    if_pos (show 1 ≤ [req.baselineIndex].length from le_rfl)]
  exact eq_take_of_prefix (prefix_foldl_addMandatory req _ _) rfl

theorem coverageOrder_spec : req.coverageOrder.Nodup ∧ ∀ i ∈ req.coverageOrder,
    i ∈ req.validIndices := by
  have hfold : ∀ is l : List ℕ, l.Nodup → (∀ i ∈ l, i ∈ req.validIndices) →
      (is.foldl req.addMandatory l).Nodup ∧
        ∀ i ∈ is.foldl req.addMandatory l, i ∈ req.validIndices := by
    intro is
    induction is with
    | nil => exact fun l hnodup hmem => ⟨hnodup, hmem⟩
    | cons j is ih =>
        intro l hnodup hmem
        rw [List.foldl_cons]
        unfold addMandatory
        split
        · rename_i hj
          refine ih _ ?_ fun i hi => ?_
          · rw [List.nodup_append]
            exact ⟨hnodup, List.nodup_singleton _, fun a ha b hb hab => hj.2 (by
              rw [List.mem_singleton.1 hb] at hab
              exact hab ▸ ha)⟩
          · obtain hi | hi := List.mem_append.1 hi
            · exact hmem i hi
            · exact List.mem_singleton.1 hi ▸ hj.1
        · exact ih l hnodup hmem
  exact hfold _ [] List.nodup_nil (by simp)

/-! ## Filling up -/

/-- The chosen indices behind some choices of the generator. -/
def drawn (req : GridRequest β) (k : ℕ) (chosen : List ℕ) : ℕ → List ℕ
  | 0 => chosen
  | n + 1 => drawn req (k + 1) (addChosen chosen (req.choice k)) n

theorem mem_addChosen {x : ℕ} : x ∈ addChosen chosen i ↔ x ∈ chosen ∨ x = i := by
  unfold addChosen
  split
  · rename_i hi
    exact ⟨.inl, fun h => h.elim id fun heq => heq ▸ hi⟩
  · simp

theorem nodup_addChosen (h : chosen.Nodup) : (addChosen chosen i).Nodup := by
  unfold addChosen
  split
  · exact h
  · rename_i hi
    rw [List.nodup_append]
    exact ⟨h, List.nodup_singleton _, fun a ha b hb hab => hi (by
      rw [List.mem_singleton.1 hb] at hab
      exact hab ▸ ha)⟩

variable (chosen i) in
theorem length_addChosen_le : (addChosen chosen i).length ≤ chosen.length + 1 := by
  unfold addChosen
  split
  · omega
  · simp

theorem mem_drawn_of_mem {n x : ℕ} (h : x ∈ chosen) : x ∈ req.drawn k chosen n := by
  induction n generalizing k chosen with
  | zero => exact h
  | succ n ih => exact ih (mem_addChosen.2 (.inl h))

variable (k chosen) in
theorem choice_mem_drawn {n j : ℕ} (h : j < n) : req.choice (k + j) ∈ req.drawn k chosen n := by
  induction n generalizing k chosen j with
  | zero => omega
  | succ n ih =>
      cases j with
      | zero =>
          show req.choice k ∈ req.drawn (k + 1) (addChosen chosen (req.choice k)) n
          exact mem_drawn_of_mem (mem_addChosen.2 (.inr rfl))
      | succ j =>
          have hj : req.choice (k + 1 + j) ∈ req.drawn (k + 1) (addChosen chosen (req.choice k)) n :=
            ih _ _ (Nat.lt_of_succ_lt_succ h)
          rwa [Nat.add_assoc, Nat.add_comm 1 j] at hj

/-- The loop ends once so many choices would have been enough. -/
theorem fill_isSome {n : ℕ} (h : req.limit ≤ (req.drawn k chosen n).length) {fuel : ℕ}
    (hfuel : n ≤ fuel) : (req.fill k chosen fuel).isSome := by
  induction n generalizing k chosen fuel with
  | zero =>
      have hdone : req.limit ≤ chosen.length := h
      cases fuel with
      | zero => simp [fill, hdone]
      | succ fuel => simp [fill, hdone]
  | succ n ih =>
      cases fuel with
      | zero => omega
      | succ fuel =>
          rw [fill]
          split
          · rfl
          · exact ih h (by omega)

theorem fill_mono {r : List ℕ} {fuel' : ℕ} (h : req.fill k chosen fuel = some r)
    (hfuel : fuel ≤ fuel') : req.fill k chosen fuel' = some r := by
  induction fuel generalizing k chosen fuel' with
  | zero =>
      rw [fill] at h
      split at h
      · cases fuel' <;> simp_all [fill]
      · cases h
  | succ fuel ih =>
      obtain ⟨n, rfl⟩ : ∃ n, fuel' = n + 1 := ⟨fuel' - 1, by omega⟩
      rw [fill] at h ⊢
      split
      · rwa [if_pos ‹_›] at h
      · rw [if_neg ‹_›] at h
        exact ih h (by omega)

/-- What the loop yields: so many different valid indices, the ones chosen before among them. -/
theorem fill_spec {r : List ℕ} (hchoice : ∀ j, req.choice j ∈ req.validIndices)
    (hnodup : chosen.Nodup) (hvalid : ∀ i ∈ chosen, i ∈ req.validIndices)
    (hlength : chosen.length ≤ req.limit) (h : req.fill k chosen fuel = some r) :
    r.Nodup ∧ (∀ i ∈ r, i ∈ req.validIndices) ∧ r.length = req.limit ∧ ∀ i ∈ chosen, i ∈ r := by
  induction fuel generalizing k chosen with
  | zero =>
      rw [fill] at h
      split at h
      · obtain rfl := Option.some.inj h
        exact ⟨hnodup, hvalid, le_antisymm hlength ‹_›, fun _ => id⟩
      · cases h
  | succ fuel ih =>
      rw [fill] at h
      split at h
      · obtain rfl := Option.some.inj h
        exact ⟨hnodup, hvalid, le_antisymm hlength ‹_›, fun _ => id⟩
      · have hstep := length_addChosen_le (req.choice k) chosen
        obtain ⟨hr, hrvalid, hrlength, hchosen⟩ := ih (nodup_addChosen hnodup)
          (fun i hi => (mem_addChosen.1 hi).elim (hvalid i) fun heq => heq ▸ hchoice k) (by omega) h
        exact ⟨hr, hrvalid, hrlength, fun i hi => hchosen i (mem_addChosen.2 (.inl hi))⟩

/-- Finitely many indices are all visited within some number of choices. -/
theorem exists_visited (hvisits : ∀ i ∈ l, ∃ j, req.choice j = i) :
    ∃ n, ∀ i ∈ l, ∃ j < n, req.choice j = i := by
  induction l with
  | nil => exact ⟨0, by simp⟩
  | cons i l ih =>
      obtain ⟨n, hn⟩ := ih fun i' hi' => hvisits i' (List.mem_cons_of_mem _ hi')
      obtain ⟨j, hj⟩ := hvisits i (List.mem_cons_self ..)
      refine ⟨max n (j + 1), fun i' hi' => ?_⟩
      obtain rfl | hi' := List.mem_cons.1 hi'
      · exact ⟨j, by omega, hj⟩
      · obtain ⟨j', hj', heq⟩ := hn i' hi'
        exact ⟨j', by omega, heq⟩

/-- A generator that visits every valid index fills every sample. -/
theorem fill_terminates (hvisits : ∀ i ∈ req.validIndices, ∃ j, req.choice j = i)
    (chosen : List ℕ) : ∃ n, ∀ fuel, n ≤ fuel → (req.fill 0 chosen fuel).isSome := by
  obtain ⟨n, hn⟩ := exists_visited hvisits
  refine ⟨n, fun fuel hfuel => fill_isSome ((limit_le req).trans ?_) hfuel⟩
  refine (validIndices_nodup.subperm fun i hi => ?_).length_le
  obtain ⟨j, hj, rfl⟩ := hn i hi
  have hmem : req.choice (0 + j) ∈ req.drawn 0 chosen n := choice_mem_drawn 0 chosen hj
  rwa [Nat.zero_add] at hmem

/-! ## The sample -/

/-- What a sample should be. -/
structure Exact (req : GridRequest β) (sample : Sample β) : Prop where
  ascending : sample.audit.selectedFlatIndices.Pairwise (· < ·)
  valid : ∀ i ∈ sample.audit.selectedFlatIndices, i ∈ req.validIndices
  variants : sample.variants = sample.audit.selectedFlatIndices.map req.decode
  count : sample.variants.length = min req.validIndices.length (max 1 req.cap.toNat)
  all : req.validIndices.length ≤ max 1 req.cap.toNat →
    sample.audit.selectedFlatIndices = req.validIndices
  baseline : req.baselineIndex ∈ req.validIndices →
    req.baselineIndex ∈ sample.audit.selectedFlatIndices
  coverage : ∀ i ∈ req.coverageOrder.take (max 1 req.cap.toNat),
    i ∈ sample.audit.selectedFlatIndices
  points : sample.audit.points.map Point.flatIndex = (List.range req.total).map fun i : ℕ => (i : ℤ)
  disposition : ∀ point ∈ sample.audit.points, ∃ i < req.total, point.flatIndex = i ∧
    point.params = req.decode i ∧
      (point.preDisposition = .selected ↔ i ∈ sample.audit.selectedFlatIndices) ∧
      (point.preDisposition = .omittedVariantCap ↔
        i ∈ req.validIndices ∧ i ∉ sample.audit.selectedFlatIndices)
  counts : sample.audit.pointLedger.dispositionCounts.selected +
    sample.audit.pointLedger.dispositionCounts.schemaInvalid +
    sample.audit.pointLedger.dispositionCounts.dependencyInvalid +
    sample.audit.pointLedger.dispositionCounts.omittedVariantCap = req.total
  totals : sample.audit.selectedTotal + sample.audit.omittedInvalid +
    sample.audit.omittedByVariantCap = req.total
  selectedTotal : sample.audit.selectedTotal = sample.variants.length
  selectedPoints : sample.audit.selectedPoints.map Point.params = sample.variants

/-- The generator chooses valid indices, and each of them at some time. -/
structure Visits (req : GridRequest β) : Prop where
  valid : ∀ k, req.choice k ∈ req.validIndices
  all : ∀ i ∈ req.validIndices, ∃ k, req.choice k = i

/-- From some number of choices on the call returns one sample, and the sample is exact. -/
def Samples (req : GridRequest β) : Prop :=
  ∃ sample n, (∀ fuel, n ≤ fuel → req.expandGridsBounded fuel = some (.ok sample)) ∧
    req.Exact sample

theorem preDisposition_point {selected : List ℕ} :
    ((req.point selected i).preDisposition = .selected ↔
      req.refusal (req.decode i) = none ∧ i ∈ selected) ∧
    ((req.point selected i).preDisposition = .omittedVariantCap ↔
      req.refusal (req.decode i) = none ∧ i ∉ selected) := by
  simp only [point, GridRequest.disposition]
  cases hrefusal : req.refusal (req.decode i) with
  | none => by_cases hi : i ∈ selected <;> simp [hi]
  | some r =>
      obtain ⟨refusal, reason⟩ := r
      cases refusal <;> simp [Refusal.disposition]

/-- Every point has one of the four dispositions. -/
theorem sum_dispositionCount (points : List (Point (Params β))) :
    dispositionCount points .selected + dispositionCount points .schemaInvalid +
      dispositionCount points .dependencyInvalid + dispositionCount points .omittedVariantCap =
        points.length := by
  induction points with
  | nil => rfl
  | cons point points ih =>
      simp only [dispositionCount, List.countP_cons, List.length_cons] at ih ⊢
      cases hpoint : point.preDisposition <;> simp <;> omega

/-- A list in strict order holds the elements of a list that contains it, filtered. -/
theorem filter_mem_eq {l selected : List ℕ} (hl : l.Pairwise (· < ·))
    (hselected : selected.Pairwise (· < ·)) (hsubset : ∀ i ∈ selected, i ∈ l) :
    l.filter (· ∈ selected) = selected := by
  refine eq_of_ascending id (hl.filter _) hselected fun i => ?_
  simp only [List.mem_filter, decide_eq_true_eq]
  exact ⟨fun h => h.2, fun h => ⟨hsubset i h, h⟩⟩

/-- What the audit says of selected indices that are valid and in order. -/
theorem exact_of_selected {selected : List ℕ} (hascending : selected.Pairwise (· < ·))
    (hvalid : ∀ i ∈ selected, i ∈ req.validIndices) (hcount : selected.length = req.limit)
    (hbaseline : req.baselineIndex ∈ req.validIndices → req.baselineIndex ∈ selected)
    (hcoverage : ∀ i ∈ req.coverageOrder.take (max 1 req.cap.toNat), i ∈ selected) :
    req.Exact ⟨selected.map req.decode, req.audit selected⟩ := by
  have hlength : (selected.map req.decode).length = req.limit := by rw [List.length_map, hcount]
  have htotal : req.validIndices.length ≤ req.total :=
    (List.length_filter_le _ _).trans_eq List.length_range
  constructor
  · exact hascending
  · exact hvalid
  · rfl
  · exact hlength
  · intro hall
    have hfilter : req.validIndices.filter (· ∈ selected) = selected :=
      filter_mem_eq validIndices_pairwise hascending hvalid
    have heq : (req.validIndices.filter (· ∈ selected)).length = req.validIndices.length := by
      rw [hfilter, hcount, limit, min_eq_left hall]
    rw [List.filter_eq_self.2 (List.length_filter_eq_length_iff.1 heq)] at hfilter
    exact hfilter.symm
  · exact hbaseline
  · exact hcoverage
  · show ((List.range req.total).map (req.point selected)).map Point.flatIndex = _
    rw [List.map_map]
    rfl
  · intro point hpoint
    obtain ⟨i, hi, rfl⟩ := List.mem_map.1 hpoint
    have hi := List.mem_range.1 hi
    refine ⟨i, hi, rfl, rfl, ?_, ?_⟩
    · rw [preDisposition_point.1]
      exact ⟨fun h => h.2, fun h => ⟨(mem_validIndices.1 (hvalid i h)).2, h⟩⟩
    · rw [preDisposition_point.2, mem_validIndices]
      exact ⟨fun h => ⟨⟨hi, h.1⟩, h.2⟩, fun h => ⟨h.1.2, h.2⟩⟩
  · show dispositionCount _ _ + dispositionCount _ _ + dispositionCount _ _ +
      dispositionCount _ _ = _
    rw [sum_dispositionCount]
    simp
  · show req.limit + (req.total - req.validIndices.length) +
      (req.validIndices.length - req.limit) = req.total
    have := limit_le req
    omega
  · exact hlength.symm
  · show (((List.range req.total).map (req.point selected)).filter
      fun point => point.preDisposition = .selected).map Point.params = selected.map req.decode
    have hpoint : ∀ i ∈ List.range req.total,
        decide ((req.point selected i).preDisposition = .selected) = decide (i ∈ selected) := by
      intro i _
      rw [decide_eq_decide, preDisposition_point.1]
      exact ⟨fun h => h.2, fun h => ⟨(mem_validIndices.1 (hvalid i h)).2, h⟩⟩
    have hrange : (List.range req.total).filter (· ∈ selected) = selected :=
      filter_mem_eq List.pairwise_lt_range hascending fun i hi =>
        List.mem_range.2 (mem_validIndices.1 (hvalid i hi)).1
    have hfilter : (List.range req.total).filter ((fun point : Point (Params β) =>
        decide (point.preDisposition = .selected)) ∘ req.point selected) = selected :=
      (List.filter_congr hpoint).trans hrange
    rw [List.filter_map, List.map_map, hfilter]
    rfl

theorem mem_mandatory_of_limit {n : ℕ} (h : i ∈ req.coverageOrder.take n) :
    i ∈ req.validIndices :=
  coverageOrder_spec.2 i ((List.take_prefix _ _).subset h)

theorem baseline_mem_coverageOrder {n : ℕ} (hn : 0 < n)
    (h : req.baselineIndex ∈ req.validIndices) :
    req.baselineIndex ∈ req.coverageOrder.take n := by
  have hfirst : req.addMandatory [] req.baselineIndex = [req.baselineIndex] := by
    simp [addMandatory, h]
  obtain ⟨rest, hrest⟩ := prefix_foldl_addMandatory req [req.baselineIndex]
    ((List.range req.axes.length).flatMap req.neighbours)
  rw [coverageOrder, List.foldl_cons, hfirst, ← hrest]
  obtain ⟨n, rfl⟩ := Nat.exists_eq_succ_of_ne_zero hn.ne'
  simp

/-- With axes and a valid point, and without the overflow, the call samples the grid exactly. -/
theorem samples_of_axes (haxes : req.axes ≠ []) (hvalid : req.validIndices ≠ [])
    (hover : ¬req.Overflows) (hvisits : req.Visits) : req.Samples := by
  have hexpand : ∀ fuel, req.expandGridsBounded fuel = (req.indices fuel).map fun indices =>
      .ok ⟨indices.map req.decode, req.audit indices⟩ := by
    intro fuel
    rw [expandGridsBounded, if_neg haxes, if_neg hvalid]
  by_cases hall : req.validIndices.length ≤ req.limit
  · have hlimit : req.validIndices.length = req.limit := le_antisymm hall (limit_le req)
    refine ⟨⟨req.validIndices.map req.decode, req.audit req.validIndices⟩, 0, fun fuel _ => ?_, ?_⟩
    · rw [hexpand, indices, if_pos hall]
      rfl
    · exact exact_of_selected validIndices_pairwise (fun _ => id) hlimit id
        fun _ => mem_mandatory_of_limit
  · obtain ⟨n, hn⟩ := fill_terminates hvisits.all req.mandatory
    have hmandatory := mandatory_eq_take hvalid hover haxes
    obtain ⟨r, hr⟩ := Option.isSome_iff_exists.1 (hn n le_rfl)
    obtain ⟨hnodup, hrvalid, hrlength, hchosen⟩ := fill_spec hvisits.valid
      (hmandatory ▸ coverageOrder_spec.1.sublist (List.take_sublist _ _))
      (hmandatory ▸ fun _ => mem_mandatory_of_limit)
      (hmandatory ▸ (List.length_take_le _ _)) hr
    have hcap : req.limit = max 1 req.cap.toNat := min_eq_right (by
      rw [limit, min_def] at hall
      split at hall <;> omega)
    refine ⟨⟨(sortOn id r).map req.decode, req.audit (sortOn id r)⟩, n, fun fuel hfuel => ?_, ?_⟩
    · rw [hexpand, indices, if_neg hall, fill_mono hr hfuel]
      rfl
    · refine exact_of_selected (sortOn_id_pairwise_lt hnodup)
        (fun i hi => hrvalid i (mem_sortOn.1 hi)) ?_ (fun hb => ?_) fun i hi => ?_
      · rw [(sortOn_perm id r).length_eq, hrlength]
      · exact mem_sortOn.2 (hchosen _ (hmandatory ▸ baseline_mem_coverageOrder (limit_pos hvalid) hb))
      · exact mem_sortOn.2 (hchosen i (by rwa [hmandatory, hcap]))

/-- A grid without axes has one point. -/
theorem samples_of_no_axes (haxes : req.axes = []) (hrefusal : req.refusal [] = none) :
    req.Samples := by
  have htotal : req.total = 1 := by simp [total, sizes, haxes]
  have hdecode : req.decode 0 = [] := by simp [decode, haxes]
  have hvalid : req.validIndices = [0] := by
    simp [validIndices, htotal, hdecode, hrefusal]
  have hlimit : req.limit = 1 := by
    rw [limit, hvalid]
    exact min_eq_left (le_max_left _ _)
  have hpoint : req.point [0] 0 = ⟨0, "", [], .selected, "selected_by_sampler"⟩ := by
    simp [point, GridRequest.disposition, hdecode, hrefusal]
  have haudit : req.audit [0] = emptyAudit := by
    simp [audit, emptyAudit, haxes, htotal, hvalid, hlimit, hpoint]
  have hbaseline : req.baselineIndex = 0 := by
    simp [baselineIndex, flatIndex, offsets, sizes, haxes, ofDigits]
  refine ⟨⟨[[]], emptyAudit⟩, 0, fun fuel _ => ?_, ?_⟩
  · rw [expandGridsBounded, if_pos haxes, hrefusal]
  · have hexact : req.Exact ⟨[0].map req.decode, req.audit [0]⟩ := by
      refine exact_of_selected (List.pairwise_singleton _ _) (fun i hi => hvalid ▸ hi) hlimit.symm
        (fun _ => by simp [hbaseline]) fun i hi => hvalid ▸ mem_mandatory_of_limit hi
    rw [haudit, List.map_singleton, hdecode] at hexact
    exact hexact

/-- Where no point is valid, the call raises. -/
theorem raises_of_none_valid (h : req.validIndices = []) (fuel : ℕ) :
    ∃ error, req.expandGridsBounded fuel = some (.error error) := by
  unfold expandGridsBounded
  split
  · rename_i haxes
    cases hrefusal : req.refusal [] with
    | some r => exact ⟨.baselineInvalid r.2, rfl⟩
    | none =>
        have hmem : 0 ∈ req.validIndices := mem_validIndices.2
          ⟨total_pos, by simpa [decode, haxes] using hrefusal⟩
        rw [h] at hmem
        cases hmem
  · exact ⟨.noVariants, rfl⟩

/-- Flat indices and offsets determine each other; a grid without a valid point raises; any other is
sampled exactly, but for the overflow, about which nothing is said. -/
theorem expandGridsBounded_samples (req : GridRequest β) :
    ((∀ i < req.total, req.flatIndex (digitsOf req.sizes i) = i) ∧
      ∀ parts, AreDigits req.sizes parts → digitsOf req.sizes (req.flatIndex parts) = parts) ∧
    (req.validIndices = [] → ∀ fuel, ∃ error, req.expandGridsBounded fuel = some (.error error)) ∧
    (req.validIndices ≠ [] → req.Visits → ¬req.Overflows → req.Samples) := by
  refine ⟨⟨fun _ => flatIndex_digitsOf, fun _ => digitsOf_flatIndex⟩, raises_of_none_valid, ?_⟩
  intro hvalid hvisits hover
  by_cases haxes : req.axes = []
  · refine samples_of_no_axes haxes ?_
    obtain ⟨i, hi⟩ := List.exists_mem_of_ne_nil _ hvalid
    have hrefusal := (mem_validIndices.1 hi).2
    simpa [decode, haxes] using hrefusal
  · exact samples_of_axes haxes hvalid hover hvisits

/-- One axis of three levels, whose second one is the baseline. -/
def threeLevels : GridRequest ℕ where
  grids := [[("period", [10, 20, 30])]]
  cap := 2
  baseline _ := 20
  same a b := a = b
  refusal _ := none
  choice k := k % 3

theorem threeLevels_visits : threeLevels.Visits := by
  have hvalid : threeLevels.validIndices = [0, 1, 2] := by decide +kernel
  constructor
  · intro k
    rw [hvalid]
    have hmod : k % 3 < 3 := Nat.mod_lt _ (by decide)
    show k % 3 ∈ [0, 1, 2]
    interval_cases k % 3 <;> decide
  · intro i hi
    rw [hvalid] at hi
    refine ⟨i, ?_⟩
    show i % 3 = i
    fin_cases hi <;> rfl

theorem threeLevels_samples : threeLevels.Samples :=
  (expandGridsBounded_samples threeLevels).2.2 (by decide +kernel) threeLevels_visits
    fun h => absurd h.limit (by decide +kernel)

/-- The same axis, and no point of it is valid. -/
def noneValid : GridRequest ℕ := { threeLevels with refusal := fun _ => some (.dependency, "") }

/-- The same axis, and one point is asked for. -/
def onePoint : GridRequest ℕ := { threeLevels with cap := 1 }

/-- Without a valid point the call raises; and a call for one point returns the baseline and its
neighbour, which its own audit counts as one. -/
theorem none_valid_raises_and_one_is_two :
    ¬noneValid.Samples ∧ ¬onePoint.Samples ∧
      (onePoint.expandGridsBounded 0).map (fun r => r.toOption.map fun sample =>
        (sample.variants, sample.audit.selectedTotal)) =
          some (some ([[("period", 10)], [("period", 20)]], 1)) := by
  have hnone : noneValid.validIndices = [] := by decide +kernel
  have hone : (onePoint.expandGridsBounded 0).map (fun r => r.toOption.map fun sample =>
      (sample.variants, sample.audit.selectedTotal)) =
        some (some ([[("period", 10)], [("period", 20)]], 1)) := by decide +kernel
  refine ⟨?_, ?_, hone⟩
  · rintro ⟨sample, n, hsample, -⟩
    obtain ⟨error, herror⟩ := raises_of_none_valid hnone n
    rw [hsample n le_rfl] at herror
    cases herror
  · rintro ⟨sample, n, hsample, hexact⟩
    have hfill : onePoint.fill 0 onePoint.mandatory 0 = some [1, 0] := by decide +kernel
    have hn := hsample n le_rfl
    rw [expandGridsBounded, if_neg (by decide +kernel), if_neg (by decide +kernel), indices,
      if_neg (by decide +kernel), fill_mono hfill (Nat.zero_le n)] at hn
    obtain rfl := Except.ok.inj (Option.some.inj hn)
    exact absurd hexact.count (by decide +kernel)

end GridRequest
end ResearchLab.Search
