import Mathlib
import ResearchLab.Foundation.Sha256
import ResearchLab.Simulation.SharedAccount

/-!
# The capacity of the shared account

The decisions of an allocation form a chronicle: each is made against the accepted decisions
before it that are still open. Capacity, rejections and replays follow from that.
-/
namespace ResearchLab.Simulation
open Foundation

/-- A request that `allocate_shared_account` does not refuse. -/
def AccountRequest.WellFormed (r : AccountRequest) : Prop :=
  r.entryTs < r.exitTs ∧ 0 < r.requestedCapacity

instance AccountRequest.decidableWellFormed (r : AccountRequest) : Decidable r.WellFormed :=
  inferInstanceAs (Decidable (_ ∧ _))

/-- The accepted decisions that are still open at a time. -/
def activeAt (ds : List Decision) (time : ℤ) : List Decision :=
  ds.filter fun d => d.status = .accepted ∧ time < d.exitTs

/-- The capacity that some decisions hold. -/
def held (ds : List Decision) : ℚ := (ds.map Decision.allocatedCapacity).sum

/-- Decisions in chronological order, each against the open ones before it. -/
inductive Chronicle (capacity : ℚ) : List Decision → Prop
  | nil : Chronicle capacity []
  | snoc {ds : List Decision} {r : AccountRequest} (hds : Chronicle capacity ds)
      (hr : r.WellFormed) (horder : ∀ d ∈ ds, d.entryTs ≤ r.entryTs) :
      Chronicle capacity (ds ++ [decideRequest capacity (activeAt ds r.entryTs) r])

section
variable {capacity : ℚ} {ds : List Decision} {r : AccountRequest}

theorem accepted_iff {active : List Decision} :
    (decideRequest capacity active r).status = .accepted ↔
      r.requestedCapacity ≤ max 0 (capacity - held active) + slack := by
  simp only [decideRequest, held]
  split_ifs with h <;> simp [h]

theorem allocated_of_accepted {active : List Decision}
    (h : (decideRequest capacity active r).status = .accepted) :
    (decideRequest capacity active r).allocatedCapacity = r.requestedCapacity :=
  if_pos (accepted_iff.1 h)

theorem allocated_nonneg {active : List Decision} (hr : r.WellFormed) :
    0 ≤ (decideRequest capacity active r).allocatedCapacity := by
  simp only [decideRequest]
  split_ifs
  · exact hr.2.le
  · exact le_rfl

theorem Chronicle.allocated_nonneg (h : Chronicle capacity ds) :
    ∀ d ∈ ds, 0 ≤ d.allocatedCapacity := by
  induction h with
  | nil => simp
  | snoc _ hr _ ih =>
    intro d hd
    rcases List.mem_append.1 hd with hd | hd
    · exact ih d hd
    · rw [List.mem_singleton.1 hd]
      exact Simulation.allocated_nonneg hr

theorem held_append (l l' : List Decision) : held (l ++ l') = held l + held l' := by
  simp [held]

theorem held_le_of_sublist {l l' : List Decision} (h : l.Sublist l')
    (hpos : ∀ d ∈ l', 0 ≤ d.allocatedCapacity) : held l ≤ held l' := by
  refine List.Sublist.sum_le_sum (h.map _) fun x hx => ?_
  obtain ⟨d, hd, rfl⟩ := List.mem_map.1 hx
  exact hpos d hd

/-- Accepted decisions that are open at one time hold at most the capacity and one slack each. -/
theorem Chronicle.held_le (h : Chronicle capacity ds) (hcapacity : 0 < capacity) {time : ℤ}
    {l : List Decision} (hl : l.Sublist ds)
    (hopen : ∀ d ∈ l, d.status = .accepted ∧ d.entryTs ≤ time ∧ time < d.exitTs) :
    held l ≤ capacity + l.length * slack := by
  have hslack : 0 < slack := by norm_num [slack]
  induction h generalizing l with
  | nil =>
    obtain rfl := List.sublist_nil.1 hl
    simpa [held] using hcapacity.le
  | @snoc ds r hds hr horder ih =>
    obtain ⟨l', last, rfl, hl', hlast⟩ := List.sublist_append_iff.1 hl
    have hfirst := ih hl' fun d hd => hopen d (List.mem_append_left _ hd)
    rcases List.sublist_singleton.1 hlast with rfl | rfl
    · simpa using hfirst
    set d := decideRequest capacity (activeAt ds r.entryTs) r with hd
    obtain ⟨haccepted, hentry, hexit⟩ := hopen d (by simp)
    -- what is open with the new decision was open when it was made
    have hactive : l'.Sublist (activeAt ds r.entryTs) := by
      have hsame : l'.filter (fun e => e.status = .accepted ∧ r.entryTs < e.exitTs) = l' := by
        rw [List.filter_eq_self]
        intro e he
        obtain ⟨h₁, -, h₃⟩ := hopen e (List.mem_append_left _ he)
        exact decide_eq_true ⟨h₁, lt_of_le_of_lt hentry h₃⟩
      rw [← hsame]
      exact hl'.filter _
    have hreserved : held l' ≤ held (activeAt ds r.entryTs) :=
      held_le_of_sublist hactive fun e he => hds.allocated_nonneg e (List.mem_filter.1 he).1
    have hallocated : d.allocatedCapacity = r.requestedCapacity := allocated_of_accepted haccepted
    have hrequested := accepted_iff.1 haccepted
    have hlength : ((l' ++ [d]).length : ℚ) = l'.length + 1 := by simp
    have hlast' : held [d] = r.requestedCapacity := by simp [held, hallocated]
    rw [held_append, hlast', hlength]
    have hcount : (0 : ℚ) ≤ l'.length := by positivity
    rcases le_total 0 (capacity - held (activeAt ds r.entryTs)) with hroom | hfull
    · rw [max_eq_right hroom] at hrequested
      nlinarith
    · rw [max_eq_left hfull] at hrequested
      linarith

/-- A rejected request asks for more than the open decisions before it leave. -/
theorem Chronicle.rejected (h : Chronicle capacity ds) {before after : List Decision}
    {d : Decision} (hds : ds = before ++ d :: after) (hd : d.status ≠ .accepted) :
    capacity - held (activeAt before d.entryTs) < d.requestedCapacity := by
  induction h generalizing after with
  | nil => simp at hds
  | @snoc ds r _ _ _ ih =>
    rcases List.eq_nil_or_concat after with rfl | ⟨after', last, rfl⟩
    · obtain ⟨rfl, hlast⟩ := List.append_inj' hds rfl
      obtain rfl := (List.singleton_inj.1 hlast).symm
      have hrefused := mt accepted_iff.2 hd
      have hle : capacity - held (activeAt ds r.entryTs) ≤
          max 0 (capacity - held (activeAt ds r.entryTs)) := le_max_right _ _
      have hslack : 0 < slack := by norm_num [slack]
      change capacity - held (activeAt ds r.entryTs) < r.requestedCapacity
      linarith [not_le.1 hrefused]
    · rw [List.concat_eq_append, ← List.cons_append, ← List.append_assoc] at hds
      exact ih (List.append_inj' hds rfl).1

end

/-! ## The loop writes a chronicle -/

section
variable {capacity : ℚ} {st st' : AccountState} {r : AccountRequest} {rs : List AccountRequest}

theorem allocateRequest_eq (hr : r.WellFormed) : allocateRequest capacity st r =
    let active := st.active.filter fun item => r.entryTs < item.exitTs
    let decision := decideRequest capacity active r
    .ok
      { active := if decision.status = .accepted then active ++ [decision] else active
        decisions := st.decisions ++ [decision] } := by
  rw [allocateRequest, if_neg (not_or.2 ⟨not_le.2 hr.1, not_le.2 hr.2⟩)]

/-- The reservations at hand are the open decisions at the entry of every request to come. -/
def Tracks (st : AccountState) (rs : List AccountRequest) : Prop :=
  ∀ r ∈ rs, (st.active.filter fun item => r.entryTs < item.exitTs) = activeAt st.decisions r.entryTs ∧
    ∀ d ∈ st.decisions, d.entryTs ≤ r.entryTs

/-- Pruning at an entry and again at a later one. -/
theorem filter_activeAt {ds : List Decision} {time time' : ℤ} (h : time ≤ time') :
    (activeAt ds time).filter (fun item => time' < item.exitTs) = activeAt ds time' := by
  rw [activeAt, activeAt, List.filter_filter]
  congr 1
  funext d
  simp only [← Bool.decide_and, decide_eq_decide]
  constructor
  · rintro ⟨h₁, h₂, -⟩
    exact ⟨h₂, h₁⟩
  · rintro ⟨h₁, h₂⟩
    exact ⟨h₂, h₁, h.trans_lt h₂⟩

theorem allocateRequest_step (hr : r.WellFormed) (hchronicle : Chronicle capacity st.decisions)
    (htracks : Tracks st (r :: rs)) (hsorted : ∀ r' ∈ rs, r.entryTs ≤ r'.entryTs) :
    ∃ st' d, allocateRequest capacity st r = .ok st' ∧
      d = decideRequest capacity (activeAt st.decisions r.entryTs) r ∧
      st'.decisions = st.decisions ++ [d] ∧
      Chronicle capacity st'.decisions ∧ Tracks st' rs := by
  obtain ⟨hactive, hbefore⟩ := htracks r List.mem_cons_self
  rw [allocateRequest_eq hr]
  simp only [hactive]
  set d := decideRequest capacity (activeAt st.decisions r.entryTs) r with hd
  refine ⟨_, d, rfl, rfl, rfl, hchronicle.snoc hr hbefore, ?_⟩
  intro r' hr'
  have hlater := hsorted r' hr'
  refine ⟨?_, ?_⟩
  · have hopen : (if d.status = .accepted then activeAt st.decisions r.entryTs ++ [d]
        else activeAt st.decisions r.entryTs) = activeAt (st.decisions ++ [d]) r.entryTs := by
      have hexit : r.entryTs < d.exitTs := hr.1
      rw [activeAt, activeAt, List.filter_append]
      split_ifs with haccepted <;> simp [haccepted, hexit]
    rw [hopen, filter_activeAt hlater]
  · intro e he
    rcases List.mem_append.1 he with he | he
    · exact (hbefore e he).trans hlater
    · rw [List.mem_singleton.1 he]
      exact hlater

theorem wellFormed_replay {active : List Decision} (hr : r.WellFormed) :
    (decideRequest capacity active r).replay.WellFormed := hr

/-- The request with its defaults filled in, as the replay of its decision has it. -/
def AccountRequest.normalised (r : AccountRequest) : AccountRequest :=
  ⟨some r.name, r.entryTs, r.exitTs, r.requestedCapacity, some (r.returnPct.getD 0)⟩

/-- A sorted list of requests runs through, and so do the requests of its decisions. -/
theorem allocate_run (hwf : ∀ r ∈ rs, r.WellFormed)
    (hsorted : rs.Pairwise fun r r' => r.entryTs ≤ r'.entryTs)
    (hchronicle : Chronicle capacity st.decisions) (htracks : Tracks st rs) :
    ∃ st' ds, rs.foldlM (allocateRequest capacity) st = .ok st' ∧
      st'.decisions = st.decisions ++ ds ∧ Chronicle capacity st'.decisions ∧
      ds.map Decision.replay = rs.map AccountRequest.normalised ∧
      (ds.map Decision.replay).foldlM (allocateRequest capacity) st = .ok st' := by
  induction rs generalizing st with
  | nil => exact ⟨st, [], rfl, (List.append_nil _).symm, hchronicle, rfl, rfl⟩
  | cons r rs ih =>
    obtain ⟨hr, hrs⟩ := List.forall_mem_cons.1 hwf
    obtain ⟨hfirst, hrest⟩ := List.pairwise_cons.1 hsorted
    obtain ⟨st₁, d, hstep, hd, hdecisions, hchronicle₁, htracks₁⟩ :=
      allocateRequest_step hr hchronicle htracks hfirst
    obtain ⟨st', ds, hrun, happend, hchronicle', hreplay, hagain⟩ := ih hrs hrest hchronicle₁ htracks₁
    have hstep' : allocateRequest capacity st d.replay = .ok st₁ := by
      rw [← hstep, hd, allocateRequest_eq (wellFormed_replay hr), allocateRequest_eq hr]
      rfl
    refine ⟨st', d :: ds, ?_, ?_, hchronicle', ?_, ?_⟩
    · rw [List.foldlM_cons, hstep]
      exact hrun
    · rw [happend, hdecisions, List.append_assoc, List.singleton_append]
    · rw [List.map_cons, List.map_cons, hreplay, hd]
      rfl
    · rw [List.map_cons, List.foldlM_cons, hstep']
      exact hagain

end

/-! ## Replay and metrics -/

section
variable {sha256 : String → String} {repr : ℚ → List Char}
variable {capacity : ℚ} {manifest : Manifest} {requests : List AccountRequest}

theorem entryTs_le_of_key_le {r r' : AccountRequest} (h : r.key ≤ r'.key) :
    r.entryTs ≤ r'.entryTs := by
  rcases Prod.Lex.toLex_le_toLex.1 h with hlt | ⟨heq, -⟩
  · exact hlt.le
  · exact heq.le

/-- Sorting normalised requests is sorting the requests. -/
theorem sortOn_normalised :
    sortOn AccountRequest.key ((sortOn AccountRequest.key requests).map AccountRequest.normalised) =
      (sortOn AccountRequest.key requests).map AccountRequest.normalised :=
  sortOn_eq_self (List.pairwise_map.2 (sortOn_pairwise AccountRequest.key requests))

theorem allocateSharedAccount_eq (hcapacity : 0 < capacity)
    (hmanifest : validateSimulatorAssumptionManifest sha256 manifest = .ok manifest) :
    allocateSharedAccount sha256 repr requests manifest capacity = do
      let st ← (sortOn AccountRequest.key requests).foldlM (allocateRequest capacity) {}
      return allocationOf sha256 repr capacity manifest st.decisions := by
  rw [allocateSharedAccount, if_neg (not_le.2 hcapacity), hmanifest]
  rfl

/-- Well-formed requests are allocated, and the requests of the decisions in the same way. -/
theorem allocateSharedAccount_run (hwf : ∀ r ∈ requests, r.WellFormed) (hcapacity : 0 < capacity)
    (hmanifest : validateSimulatorAssumptionManifest sha256 manifest = .ok manifest) :
    ∃ ds, allocateSharedAccount sha256 repr requests manifest capacity =
        .ok (allocationOf sha256 repr capacity manifest ds) ∧
      Chronicle capacity ds ∧
      ds.map Decision.replay =
        (sortOn AccountRequest.key requests).map AccountRequest.normalised ∧
      allocateSharedAccount sha256 repr (ds.map Decision.replay) manifest capacity =
        .ok (allocationOf sha256 repr capacity manifest ds) := by
  have hsorted : (sortOn AccountRequest.key requests).Pairwise fun r r' => r.entryTs ≤ r'.entryTs :=
    (sortOn_pairwise AccountRequest.key requests).imp entryTs_le_of_key_le
  have hwf' : ∀ r ∈ sortOn AccountRequest.key requests, r.WellFormed := fun r hr =>
    hwf r ((sortOn_perm AccountRequest.key requests).mem_iff.1 hr)
  have hstart : Tracks {} (sortOn AccountRequest.key requests) := fun r _ => ⟨rfl, by simp⟩
  obtain ⟨st, ds, hrun, hdecisions, hchronicle, hreplay, hagain⟩ :=
    allocate_run hwf' hsorted Chronicle.nil hstart
  rw [List.nil_append] at hdecisions
  subst hdecisions
  refine ⟨st.decisions, ?_, hchronicle, hreplay, ?_⟩
  · rw [allocateSharedAccount_eq hcapacity hmanifest, hrun]
    rfl
  · have hsame : sortOn AccountRequest.key (st.decisions.map Decision.replay) =
        st.decisions.map Decision.replay := by
      rw [hreplay]
      exact sortOn_normalised
    rw [allocateSharedAccount_eq hcapacity hmanifest, hsame, hagain]
    rfl

/-- What an accepted decision multiplies the equity by. -/
def Decision.growth (capacity : ℚ) (d : Decision) : ℚ :=
  1 + d.allocatedCapacity / capacity * d.returnPct / 100

theorem compound_equity (ds : List Decision) (st : EquityState) :
    (ds.foldl (compound capacity) st).equity =
      st.equity * (ds.map (Decision.growth capacity)).prod := by
  induction ds generalizing st with
  | nil => simp
  | cons d ds ih =>
    rw [List.foldl_cons, ih, List.map_cons, List.prod_cons, ← mul_assoc]
    rfl

theorem compound_curve (ds : List Decision) (st : EquityState)
    (hst : st.curve.getLast? = some st.equity) :
    (ds.foldl (compound capacity) st).curve.getLast? =
      some (ds.foldl (compound capacity) st).equity := by
  induction ds generalizing st with
  | nil => exact hst
  | cons d ds ih => exact ih _ (by simp [compound])

/-- The equity curve ends with the product over the accepted decisions. -/
theorem compound_last (ds : List Decision) :
    ((sortOn Decision.exitKey ds).foldl (compound capacity) {}).curve.getLast? =
      some (ds.map (Decision.growth capacity)).prod := by
  rw [compound_curve _ _ rfl, compound_equity, one_mul,
    ((sortOn_perm Decision.exitKey ds).map (Decision.growth capacity)).prod_eq]

/-- An allocation that its own replay reproduces has metrics. -/
theorem metrics_of_replay {ds : List Decision} (hcapacity : 0 < capacity)
    (hmanifest : validateSimulatorAssumptionManifest sha256 manifest = .ok manifest)
    (hreplay : allocateSharedAccount sha256 repr (ds.map Decision.replay) manifest capacity =
      .ok (allocationOf sha256 repr capacity manifest ds)) :
    ∃ m, chronologicalCompoundedMetrics sha256 repr
        (allocationOf sha256 repr capacity manifest ds) = .ok m ∧
      m.equityCurve = ((sortOn Decision.exitKey (ds.filter fun d => d.status = .accepted)).foldl
        (compound capacity) {}).curve := by
  set a := allocationOf sha256 repr capacity manifest ds with ha
  have hid : a.allocationId = allocationId sha256 repr a := rfl
  have hschema : a.schema = "SharedAccountAllocation.v2" := rfl
  have hcapacity' : a.accountCapacity = capacity := rfl
  have hmanifest' : a.simulatorManifest = manifest := rfl
  have hdecisions : a.decisions = ds := rfl
  apply Exists.intro
  refine ⟨?_, ?_⟩
  · rw [chronologicalCompoundedMetrics]
    simp only [hschema, hcapacity', hmanifest', hdecisions, ne_eq, not_true_eq_false, if_false,
      if_neg (not_le.2 hcapacity), ← hid, hmanifest]
    change (allocateSharedAccount sha256 repr (ds.map Decision.replay) manifest capacity >>= _) = _
    rw [hreplay]
    change (if a ≠ a then _ else _) = _
    rw [if_neg (not_not.2 rfl)]
  · rfl

end

/-- The shared account never overcommits, rejects only for want of room, ignores the order of its
input and is accepted by its own replay. -/
theorem shared_account_capacity (sha256 : String → String) (repr : ℚ → List Char)
    (requests : List AccountRequest) (manifest : Manifest) (capacity : ℚ)
    (hwf : ∀ r ∈ requests, r.WellFormed) (hcapacity : 0 < capacity)
    (hmanifest : validateSimulatorAssumptionManifest sha256 manifest = .ok manifest) :
    ∃ a, allocateSharedAccount sha256 repr requests manifest capacity = .ok a ∧
      -- there is one decision for each request
      (a.decisions.map Decision.replay).Perm (requests.map AccountRequest.normalised) ∧
      -- accepted decisions that are open at one time
      (∀ (time : ℤ) (l : List Decision), l.Sublist a.decisions →
        (∀ d ∈ l, d.status = .accepted ∧ d.entryTs ≤ time ∧ time < d.exitTs) →
        held l ≤ capacity + l.length * slack) ∧
      -- a rejection against the open decisions before it
      (∀ before after d, a.decisions = before ++ d :: after → d.status ≠ .accepted →
        capacity - held (activeAt before d.entryTs) < d.requestedCapacity) ∧
      ((requests.map AccountRequest.key).Nodup → ∀ requests', requests.Perm requests' →
        allocateSharedAccount sha256 repr requests' manifest capacity = .ok a) ∧
      allocateSharedAccount sha256 repr (a.decisions.map Decision.replay) manifest capacity =
        .ok a ∧
      ∃ m, chronologicalCompoundedMetrics sha256 repr a = .ok m ∧
        m.equityCurve.getLast? = some ((a.decisions.filter fun d => d.status = .accepted).map
          fun d => 1 + d.allocatedCapacity / capacity * d.returnPct / 100).prod := by
  obtain ⟨ds, hrun, hchronicle, hdecisions, hreplay⟩ :=
    @allocateSharedAccount_run sha256 repr _ _ _ hwf hcapacity hmanifest
  obtain ⟨m, hmetrics, hcurve⟩ := metrics_of_replay hcapacity hmanifest hreplay
  refine ⟨_, hrun, ?_, ?_, ?_, ?_, hreplay, m, hmetrics, ?_⟩
  · change (ds.map Decision.replay).Perm _
    rw [hdecisions]
    exact (sortOn_perm AccountRequest.key requests).map _
  · intro time l hl hopen
    exact hchronicle.held_le hcapacity hl hopen
  · intro before after d hds hd
    exact hchronicle.rejected hds hd
  · intro hkeys requests' hperm
    rw [← hrun, allocateSharedAccount_eq hcapacity hmanifest,
      allocateSharedAccount_eq hcapacity hmanifest, sortOn_eq_of_perm hperm hkeys]
  · rw [hcurve]
    exact compound_last _

/-- Three trades on one account, two of which fit. -/
def overlappingRequests : List AccountRequest :=
  [⟨some "c", 3, 8, 1 / 2, some 1⟩, ⟨some "a", 1, 5, 3 / 5, some 2⟩,
    ⟨some "b", 2, 4, 2 / 5, some (-1)⟩]

theorem shared_account_capacity_overlappingRequests :
    ∃ a, allocateSharedAccount Sha256.sha256 (fun x => (toString x).toList) overlappingRequests
        (legacyFixtureManifest Sha256.sha256) 1 = .ok a ∧
      (a.decisions.map Decision.replay).Perm
        (overlappingRequests.map AccountRequest.normalised) ∧
      (∀ (time : ℤ) (l : List Decision), l.Sublist a.decisions →
        (∀ d ∈ l, d.status = .accepted ∧ d.entryTs ≤ time ∧ time < d.exitTs) →
        held l ≤ 1 + l.length * slack) ∧
      (∀ before after d, a.decisions = before ++ d :: after → d.status ≠ .accepted →
        1 - held (activeAt before d.entryTs) < d.requestedCapacity) ∧
      ((overlappingRequests.map AccountRequest.key).Nodup → ∀ requests',
        overlappingRequests.Perm requests' →
        allocateSharedAccount Sha256.sha256 (fun x => (toString x).toList) requests'
          (legacyFixtureManifest Sha256.sha256) 1 = .ok a) ∧
      allocateSharedAccount Sha256.sha256 (fun x => (toString x).toList)
          (a.decisions.map Decision.replay) (legacyFixtureManifest Sha256.sha256) 1 = .ok a ∧
      ∃ m, chronologicalCompoundedMetrics Sha256.sha256 (fun x => (toString x).toList) a = .ok m ∧
        m.equityCurve.getLast? = some ((a.decisions.filter fun d => d.status = .accepted).map
          fun d => 1 + d.allocatedCapacity / 1 * d.returnPct / 100).prod :=
  shared_account_capacity _ _ overlappingRequests _ 1 (by decide +kernel) one_pos
    validate_legacyFixtureManifest

end ResearchLab.Simulation
