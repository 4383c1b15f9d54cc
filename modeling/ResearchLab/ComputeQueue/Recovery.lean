import Mathlib
import ResearchLab.ComputeQueue.CrashSafety

/-!
# Recovery of publications

A publication only moves on. A recovery that runs alone never raises and leaves no publication
pending, and recoveries that overlap meet the error about both directories only where one renames
a directory between the two looks of another.
-/
namespace ResearchLab.ComputeQueue
open Foundation

variable {root : List String} {s t : PublicationFarm}

/-! ## The states of a publication -/

inductive PublicationState.Next : PublicationState → PublicationState → Prop
  | directory : Next .pendingRename .directoryPublished
  | indexes : Next .directoryPublished .published

/-- Zero or more moves to the next state. -/
def PublicationState.Moves : PublicationState → PublicationState → Prop :=
  Relation.ReflTransGen PublicationState.Next

/-- Publications stay, under their directories, and move on. -/
def Advances (db db' : QueueDb) : Prop :=
  ∀ key p, db.publications.row key = some p → ∃ p', db'.publications.row key = some p' ∧
    p'.provisionalPath = p.provisionalPath ∧ p'.finalLabel = p.finalLabel ∧
    p.state.Moves p'.state

theorem Advances.refl (db : QueueDb) : Advances db db :=
  fun _ p hp => ⟨p, hp, rfl, rfl, .refl⟩

theorem Advances.trans {db db' db'' : QueueDb} (h : Advances db db') (h' : Advances db' db'') :
    Advances db db'' := by
  intro key p hp
  obtain ⟨p', hp', hprovisional, hlabel, hmoves⟩ := h key p hp
  obtain ⟨p'', hp'', hprovisional', hlabel', hmoves'⟩ := h' key p' hp'
  exact ⟨p'', hp'', hprovisional'.trans hprovisional, hlabel'.trans hlabel, hmoves.trans hmoves'⟩

theorem Advances.of_same {db db' : QueueDb} (h : db'.publications = db.publications) :
    Advances db db' := fun _ p hp => ⟨p, h ▸ hp, rfl, rfl, .refl⟩

theorem Advances.modify {db db' : QueueDb} {key : ℕ × ℕ} {f : PublicationRow → PublicationRow}
    (h : db'.publications = db.publications.modify key f)
    (hf : ∀ p, db.publications.row key = some p → (f p).provisionalPath = p.provisionalPath ∧
      (f p).finalLabel = p.finalLabel ∧ p.state.Moves (f p).state) : Advances db db' := by
  intro k p hp
  rw [h, Table.modify_row]
  split_ifs with hk
  · subst hk
    exact ⟨f p, by rw [hp, Option.map_some], hf p hp⟩
  · exact ⟨p, hp, rfl, rfl, .refl⟩

theorem publishedDirectory_advances (now : ℚ) (p : PublicationRow) :
    (publishedDirectory now p).provisionalPath = p.provisionalPath ∧
      (publishedDirectory now p).finalLabel = p.finalLabel ∧
      p.state.Moves (publishedDirectory now p).state := by
  simp only [publishedDirectory]
  split_ifs with hstate
  · exact ⟨rfl, rfl, .single (hstate ▸ .directory)⟩
  · exact ⟨rfl, rfl, .refl⟩

theorem recoverAccess_advances (now : ℚ) (call : Recovery) (dirs : Directories) (db : QueueDb) :
    Advances db (recoverAccess root now call dirs db).2.2 := by
  obtain ⟨rows, stage⟩ := call
  cases rows with
  | nil => exact .refl _
  | cons entry rest =>
    cases stage with
    | update =>
      rw [access_update]
      exact .modify rfl fun p _ => publishedDirectory_advances now p
    | _ =>
      simp only [recoverAccess]
      split_ifs <;> exact .refl _

theorem mark_advances (key : ℕ × ℕ) (now : ℚ) (db : QueueDb) :
    Advances db (markPublicationIndexesPublished key now db).2 := by
  simp only [markPublicationIndexesPublished]
  split
  · exact .refl _
  next publications hcas =>
  obtain ⟨p, hp, hready, rfl⟩ := Table.compareAndSet_eq_some.1 hcas
  refine .modify rfl fun p' hp' => ⟨rfl, rfl, ?_⟩
  obtain rfl := Option.some.inj (hp.symm.trans hp')
  simp only [decide_eq_true_eq] at hready
  rcases hready with hstate | hstate
  · exact .single (hstate ▸ .indexes)
  · rw [hstate]
    exact .refl

theorem PublicationFarm.Inv.advances (h : s.Inv root) {a : PublicationAction} (ha : s.enabled a) :
    Advances s.farm.db (s.step root a).farm.db := by
  cases a with
  | call action => exact .of_same (step_unpublished h.finishing ha.2).publications
  | writeOutputs => exact .refl _
  | publish =>
    simp only [PublicationFarm.step]
    split <;> exact .refl _
  | commit worker obs =>
    obtain ⟨claim, args, hpending⟩ := ha
    obtain ⟨-, -, -, -, ⟨-, hdb⟩ | ⟨count, tables, -, -, hcommitted⟩⟩ := commit_cases hpending obs
    · exact .of_same (by rw [PublicationFarm.step, hdb])
    · obtain ⟨row, -, -, hrow, hrunning, -⟩ := hcommitted.job
      obtain ⟨createdAt, hupsert⟩ := hcommitted.publication
      have hkey : s.farm.db.queue.row claim.key.1 = some row := hrow
      obtain ⟨hnone, -⟩ := h.unpublished_of_running hkey hrunning
      intro key p hp
      refine ⟨p, ?_, rfl, rfl, .refl⟩
      rw [PublicationFarm.step, hupsert, Table.upsert, if_pos hnone]
      exact Table.insert_row_some hp
  | select => exact .refl _
  | access =>
    simp only [PublicationFarm.step]
    split
    · exact .refl _
    · exact recoverAccess_advances _ _ _ _
  | crash => exact .refl _
  | mark => exact mark_advances _ _ _

/-! ## A recovery that runs alone -/

/-- A run of one recovery. -/
def Accesses (recovery : ℕ) (as : List PublicationAction) : Prop :=
  ∀ a ∈ as, ∃ now, a = .access recovery now

/-- Every pending publication is still ahead, and the looks at the directories of the row at hand
are still true. -/
structure Progress (root : List String) (s : PublicationFarm) (call : Recovery) : Prop where
  ahead : ∀ key p, s.farm.db.publications.row key = some p → p.state = .pendingRename →
    ∃ entry ∈ call.rows, entry.1 = key
  provisional : ∀ entry rest out, call.rows = entry :: rest → s.outputs.row entry.1 = some out →
    call.stage = .lookFinal ∨ call.stage = .rename → s.farm.dirs (provisionalDir root out) = true
  final : ∀ entry rest out, call.rows = entry :: rest → s.outputs.row entry.1 = some out →
    call.stage = .lookPublished ∨ call.stage = .update → s.farm.dirs (finalDir root out) = true

def RecoveryStage.index : RecoveryStage → ℕ
  | .look => 0
  | .lookFinal => 1
  | .lookAgain => 2
  | .rename => 3
  | .lookPublished => 4
  | .update => 5

/-- How many accesses are left at most. -/
def Recovery.left (call : Recovery) : ℕ := 6 * call.rows.length + (5 - call.stage.index)

theorem Progress.of_head {key : ℕ × ℕ} {row : PublicationRow} {out : Outputs}
    {rest : List ((ℕ × ℕ) × PublicationRow)} {stage : RecoveryStage}
    (hahead : ∀ k p, t.farm.db.publications.row k = some p → p.state = .pendingRename →
      ∃ entry ∈ (key, row) :: rest, entry.1 = k) (hout : t.outputs.row key = some out)
    (hprovisional : stage = .lookFinal ∨ stage = .rename →
      t.farm.dirs (provisionalDir root out) = true)
    (hfinal : stage = .lookPublished ∨ stage = .update → t.farm.dirs (finalDir root out) = true) :
    Progress root t ⟨(key, row) :: rest, stage⟩ := by
  refine ⟨hahead, fun entry rest' out' heq hout' hstage => ?_,
    fun entry rest' out' heq hout' hstage => ?_⟩
  · obtain rfl := (List.cons.inj heq).1
    obtain rfl := Option.some.inj (hout.symm.trans hout')
    exact hprovisional hstage
  · obtain rfl := (List.cons.inj heq).1
    obtain rfl := Option.some.inj (hout.symm.trans hout')
    exact hfinal hstage

theorem Progress.of_look {rows : List ((ℕ × ℕ) × PublicationRow)}
    (hahead : ∀ k p, t.farm.db.publications.row k = some p → p.state = .pendingRename →
      ∃ entry ∈ rows, entry.1 = k) : Progress root t ⟨rows, .look⟩ :=
  ⟨hahead, by simp, by simp⟩

/-- One access of a recovery that runs alone. -/
theorem Progress.access (h : s.Inv root) {recovery : ℕ} {call : Recovery}
    (hcall : s.recoveries recovery = some call) (hp : Progress root s call) (now : ℚ) :
    (call.rows = [] ∧ recoverAccess root now call s.farm.dirs s.farm.db =
        (.ok none, s.farm.dirs, s.farm.db)) ∨
      ∃ call', (recoverAccess root now call s.farm.dirs s.farm.db).1 = .ok (some call') ∧
        Progress root (s.step root (.access recovery now)) call' ∧ call'.left < call.left := by
  have hsound := h.recovering recovery call hcall
  simp only [PublicationFarm.step, hcall]
  obtain ⟨rows, stage⟩ := call
  cases rows with
  | nil => exact Or.inl ⟨rfl, rfl⟩
  | cons entry rest =>
    refine Or.inr ?_
    obtain ⟨key, row⟩ := entry
    obtain ⟨p, out, hpublication, hof⟩ := hsound.rows _ List.mem_cons_self
    have hsingle := h.single _ _ hof.1
    cases stage with
    | look =>
      rw [access_look hof]
      refine ⟨_, rfl, .of_head hp.ahead hof.1 ?_ ?_, ?_⟩
      all_goals cases hdir : s.farm.dirs (provisionalDir root out) <;>
        simp [Recovery.left, RecoveryStage.index]
    | lookFinal =>
      have hdir := hp.provisional _ _ out rfl hof.1 (Or.inl rfl)
      rw [hsingle, Bool.not_eq_true'] at hdir
      rw [access_lookFinal hof, hdir]
      exact ⟨_, rfl, .of_head hp.ahead hof.1 (by simp) (by simp),
        by simp [Recovery.left, RecoveryStage.index]⟩
    | lookAgain =>
      rw [access_lookAgain hof]
      refine ⟨_, rfl, .of_head hp.ahead hof.1 ?_ ?_, ?_⟩
      all_goals cases hfinal : s.farm.dirs (finalDir root out) <;>
        simp [Recovery.left, RecoveryStage.index, hsingle, hfinal]
    | rename =>
      have hdir := hp.provisional _ _ out rfl hof.1 (Or.inr rfl)
      rw [access_rename hof hsingle, if_pos hdir]
      exact ⟨_, rfl, .of_head hp.ahead hof.1 (by simp)
        (fun _ => renameDirectory_finalDir.2 (Or.inl rfl)),
        by simp [Recovery.left, RecoveryStage.index]⟩
    | lookPublished =>
      have hdir := hp.final _ _ out rfl hof.1 (Or.inl rfl)
      rw [access_lookPublished hof, if_pos hdir]
      exact ⟨_, rfl, .of_head hp.ahead hof.1 (by simp) (fun _ => hdir),
        by simp [Recovery.left, RecoveryStage.index]⟩
    | update =>
      rw [access_update]
      refine ⟨_, rfl, .of_look fun k p' hp' hstate => ?_, ?_⟩
      · simp only [Table.modify_row] at hp'
        split_ifs at hp' with hk
        · -- the row at hand is not pending any more
          obtain ⟨p'', -, rfl⟩ := Option.map_eq_some_iff.1 hp'
          simp only [publishedDirectory] at hstate
          split_ifs at hstate with hpending
          exact absurd hstate hpending
        · obtain ⟨entry, hentry, rfl⟩ := hp.ahead k p' hp' hstate
          rcases List.mem_cons.1 hentry with rfl | hentry
          · exact absurd rfl hk
          · exact ⟨entry, hentry, rfl⟩
      · simp only [Recovery.left, RecoveryStage.index, List.length_cons]
        omega

theorem progress_select (recovery : ℕ) :
    Progress root (s.step root (.select recovery none)) ⟨pendingPublications none s.farm.db, .look⟩ :=
  .of_look fun k p hp hstate =>
    ⟨(k, p), mem_pendingPublications.2 ⟨hp, hstate, by simp⟩, rfl⟩

/-- Nothing is left to recover. -/
def NonePending (s : PublicationFarm) : Prop :=
  ∀ key p, s.farm.db.publications.row key = some p → p.state ≠ .pendingRename

/-- Where a recovery that runs alone is. -/
def Alone (root : List String) (recovery : ℕ) (s : PublicationFarm) : Prop :=
  (∃ call, s.recoveries recovery = some call ∧ Progress root s call) ∨
    (s.recoveries recovery = none ∧ NonePending s)

theorem Alone.access (h : s.Inv root) {recovery : ℕ} (hs : Alone root recovery s)
    (hcall : s.recoveries recovery ≠ none) (now : ℚ) :
    Alone root recovery (s.step root (.access recovery now)) := by
  rcases hs with ⟨call, hcall, hprogress⟩ | ⟨hnone, -⟩
  · rcases hprogress.access h hcall now with ⟨hrows, hreturn⟩ | ⟨call', hreply, hprogress', -⟩
    · refine Or.inr ?_
      simp only [PublicationFarm.step, hcall, hreturn]
      refine ⟨by simp [callOf], fun key p hp hstate => ?_⟩
      obtain ⟨entry, hentry, -⟩ := hprogress.ahead key p hp hstate
      simp [hrows] at hentry
    · refine Or.inl ⟨call', ?_, hprogress'⟩
      simp [PublicationFarm.step, hcall, hreply, callOf]
  · exact absurd hnone hcall

theorem Alone.run {recovery : ℕ} {as : List PublicationAction}
    (hrun : (publications root).Steps s as t) (has : Accesses recovery as) (h : s.Inv root)
    (hs : Alone root recovery s) : Alone root recovery t ∧ t.Inv root := by
  induction hrun with
  | nil => exact ⟨hs, h⟩
  | cons enabled _ ih =>
    obtain ⟨hfirst, hrest⟩ := List.forall_mem_cons.1 has
    obtain ⟨now, rfl⟩ := hfirst
    have henabled : PublicationFarm.enabled _ (.access recovery now) := enabled
    exact ih hrest (h.step henabled) (hs.access h henabled now)

/-- A recovery that runs alone returns. -/
theorem Progress.returns (h : s.Inv root) {recovery : ℕ} {call : Recovery}
    (hcall : s.recoveries recovery = some call) (hp : Progress root s call) :
    ∃ as t, Accesses recovery as ∧ (publications root).Steps s as t ∧
      t.recoveries recovery = none := by
  induction hleft : call.left using Nat.strongRecOn generalizing s call with
  | _ left ih =>
    have henabled : s.enabled (.access recovery 0) := by simp [PublicationFarm.enabled, hcall]
    have hstep := h.step henabled
    rcases hp.access h hcall 0 with ⟨-, hreturn⟩ | ⟨call', hreply, hprogress, hless⟩
    · refine ⟨[.access recovery 0], _, by simp [Accesses], .cons henabled (.nil _), ?_⟩
      simp [publications, PublicationFarm.step, hcall, hreturn, callOf]
    · have hcall' : (s.step root (.access recovery 0)).recoveries recovery = some call' := by
        simp [PublicationFarm.step, hcall, hreply, callOf]
      obtain ⟨as, t, has, hrun, hreturned⟩ :=
        ih call'.left (hleft ▸ hless) hstep hcall' hprogress rfl
      refine ⟨.access recovery 0 :: as, t, ?_, .cons henabled hrun, hreturned⟩
      exact List.forall_mem_cons.2 ⟨⟨0, rfl⟩, has⟩

/-- Where nothing is pending, a recovery of any rows changes nothing. -/
theorem recovery_of_nonePending (hnone : NonePending s) {recovery : ℕ} {key : Option (ℕ × ℕ)}
    {as : List PublicationAction} (has : Accesses recovery as)
    (hrun : (publications root).Steps (s.step root (.select recovery key)) as t) :
    t.farm = s.farm ∧ t.imports = s.imports ∧ t.outputs = s.outputs := by
  have hrows : pendingPublications key s.farm.db = [] := by
    rw [List.eq_nil_iff_forall_not_mem]
    intro entry hentry
    obtain ⟨hp, hstate, -⟩ := mem_pendingPublications.1 hentry
    exact hnone _ _ hp hstate
  cases hrun with
  | nil => exact ⟨rfl, rfl, rfl⟩
  | cons _ hrest =>
    obtain ⟨hfirst, hothers⟩ := List.forall_mem_cons.1 has
    obtain ⟨now, rfl⟩ := hfirst
    have hreturned : ((publications root).step (s.step root (.select recovery key))
        (.access recovery now)).recoveries recovery = none := by
      simp [publications, PublicationFarm.step, hrows, recoverAccess, callOf]
    have hsame : ((publications root).step (s.step root (.select recovery key))
        (.access recovery now)).farm = s.farm := by
      simp [publications, PublicationFarm.step, hrows, recoverAccess]
    cases hrest with
    | nil =>
      refine ⟨hsame, ?_, ?_⟩ <;> simp [publications, PublicationFarm.step]
    | cons enabled _ =>
      obtain ⟨now', rfl⟩ := (List.forall_mem_cons.1 hothers).1
      exact absurd hreturned enabled

/-! ## Recoveries that overlap -/

/-- Whatever a recovery has seen in its first look is still there at its second. -/
def Seen (root : List String) (s : PublicationFarm) : Prop :=
  ∀ recovery key row rest out, s.recoveries recovery = some ⟨(key, row) :: rest, .lookFinal⟩ →
    s.outputs.row key = some out → s.farm.dirs (provisionalDir root out) = true

theorem orderly_reachable (hs : (orderlyPublications root).Reachable s) :
    (publications root).Reachable s := by
  induction hs with
  | init h => exact .init h
  | step _ enabled ih => exact .step (M := publications root) ih enabled.1

theorem Seen.of_dirs (hseen : Seen root s) (houtputs : t.outputs = s.outputs)
    (hrecoveries : ∀ recovery call, t.recoveries recovery = some call →
      s.recoveries recovery = some call ∨ call.stage ≠ .lookFinal)
    (hdirs : ∀ path, s.farm.dirs path = true → t.farm.dirs path = true) : Seen root t := by
  intro recovery key row rest out hcall hout
  rcases hrecoveries recovery _ hcall with hcall | hstage
  · exact hdirs _ (hseen _ _ _ _ _ hcall (houtputs ▸ hout))
  · exact absurd rfl hstage

/-- What an access does to the directories, and how a recovery gets to its second look. -/
theorem recoverAccess_seen {call : Recovery} {key : ℕ × ℕ} {row : PublicationRow} {out : Outputs}
    {rest : List ((ℕ × ℕ) × PublicationRow)} (hrows : call.rows = (key, row) :: rest)
    (hof : PublicationOf root s key out row)
    (hsingle : s.farm.dirs (provisionalDir root out) = !s.farm.dirs (finalDir root out)) (now : ℚ) :
    ((recoverAccess root now call s.farm.dirs s.farm.db).2.1 = s.farm.dirs ∨
        call.stage = .rename ∧ (recoverAccess root now call s.farm.dirs s.farm.db).2.1 =
          renameDirectory (provisionalDir root out) (finalDir root out) s.farm.dirs) ∧
      ∀ call', callOf (recoverAccess root now call s.farm.dirs s.farm.db).1 = some call' →
        call'.stage = .lookFinal → call'.rows = (key, row) :: rest ∧
          (recoverAccess root now call s.farm.dirs s.farm.db).2.1 = s.farm.dirs ∧
          s.farm.dirs (provisionalDir root out) = true := by
  obtain ⟨rows, stage⟩ := call
  obtain rfl : rows = (key, row) :: rest := hrows
  cases stage with
  | look =>
    rw [access_look hof]
    refine ⟨Or.inl rfl, fun call' hcall' hstage => ?_⟩
    obtain rfl := Option.some.inj hcall'
    cases hdir : s.farm.dirs (provisionalDir root out) with
    | false => simp [hdir] at hstage
    | true => exact ⟨rfl, rfl, rfl⟩
  | lookFinal =>
    rw [access_lookFinal hof]
    refine ⟨Or.inl rfl, fun call' hcall' hstage => ?_⟩
    split_ifs at hcall'
    · cases hcall'
    · obtain rfl := Option.some.inj hcall'
      cases hstage
  | lookAgain =>
    rw [access_lookAgain hof]
    refine ⟨Or.inl rfl, fun call' hcall' hstage => ?_⟩
    obtain rfl := Option.some.inj hcall'
    cases hdir : s.farm.dirs (provisionalDir root out) <;> simp [hdir] at hstage
  | rename =>
    rw [access_rename hof hsingle]
    split_ifs
    · refine ⟨Or.inr ⟨rfl, rfl⟩, fun call' hcall' hstage => ?_⟩
      obtain rfl := Option.some.inj hcall'
      cases hstage
    · exact ⟨Or.inl rfl, by simp [callOf]⟩
  | lookPublished =>
    rw [access_lookPublished hof]
    refine ⟨Or.inl rfl, fun call' hcall' hstage => ?_⟩
    obtain rfl := Option.some.inj hcall'
    cases hdir : s.farm.dirs (finalDir root out) <;> simp [hdir] at hstage
  | update =>
    rw [access_update]
    refine ⟨Or.inl rfl, fun call' hcall' hstage => ?_⟩
    obtain rfl := Option.some.inj hcall'
    cases hstage

theorem Seen.access (h : s.Inv root) (hseen : Seen root s) {recovery : ℕ} {now : ℚ}
    (horder : ¬ Disturbs s (.access recovery now)) :
    Seen root (s.step root (.access recovery now)) := by
  simp only [PublicationFarm.step]
  split
  · exact hseen
  next call hcall =>
  cases hrows : call.rows with
  | nil =>
    have hreturn : recoverAccess root now call s.farm.dirs s.farm.db =
        (.ok none, s.farm.dirs, s.farm.db) := by rw [recoverAccess, hrows]
    rw [hreturn]
    refine hseen.of_dirs rfl (fun r call' hcall' => ?_) fun _ hdir => hdir
    simp only [Function.update_apply, callOf] at hcall'
    split_ifs at hcall'
    exact Or.inl hcall'
  | cons entry rest =>
    obtain ⟨key, row⟩ := entry
    obtain ⟨p, out, -, hof⟩ := (h.recovering recovery call hcall).rows (key, row) (by simp [hrows])
    obtain ⟨hdirs, hsecond⟩ := recoverAccess_seen hrows hof (h.single _ _ hof.1) now
    intro r key' row' rest' out' hcall' hout'
    simp only [Function.update_apply] at hcall'
    split_ifs at hcall' with hr
    · obtain ⟨hrows', hsame, hdir⟩ := hsecond _ hcall' rfl
      obtain ⟨heq, -⟩ := List.cons.inj hrows'
      obtain ⟨rfl, rfl⟩ := Prod.mk.inj heq
      obtain rfl := Option.some.inj (hof.1.symm.trans hout')
      simp only [hsame]
      exact hdir
    · have hbefore := hseen r key' row' rest' out' hcall' hout'
      rcases hdirs with hsame | ⟨hstage, hrenamed⟩
      · simp only [hsame]
        exact hbefore
      · simp only [hrenamed, renameDirectory_provisionalDir]
        refine ⟨fun hname => horder ?_, hbefore⟩
        obtain rfl := h.names _ _ _ _ hout' hof.1 hname
        have hrename : s.recoveries recovery = some ⟨(key', row) :: rest, .rename⟩ := by
          rw [hcall, ← hrows, ← hstage]
        exact ⟨key', row, rest, hrename, r, row', rest', hcall'⟩

theorem Seen.step (h : s.Inv root) (hseen : Seen root s) {a : PublicationAction}
    (ha : s.enabled a) (horder : ¬ Disturbs s a) : Seen root (s.step root a) := by
  cases a with
  | call action =>
    refine hseen.of_dirs rfl (fun _ _ hcall => Or.inl hcall) fun path hdir => ?_
    rw [PublicationFarm.step, step_dirs ha.2]
    exact hdir
  | writeOutputs key out =>
    intro recovery key' row rest out' hcall hout'
    obtain ⟨p, out'', -, hof⟩ := (h.recovering recovery _ hcall).rows _ List.mem_cons_self
    have hkept : (s.outputs.insert key out).row key' = some out'' := Table.insert_row_some hof.1
    obtain rfl := Option.some.inj (hkept.symm.trans hout')
    have hdir := hseen _ _ _ _ _ hcall hof.1
    simp only [PublicationFarm.step, Function.update_apply]
    split_ifs
    · rfl
    · exact hdir
  | publish =>
    simp only [PublicationFarm.step]
    split <;> exact hseen
  | commit worker obs =>
    obtain ⟨claim, args, hpending⟩ := ha
    obtain ⟨houtputs, hrecoveries, hdirs, -, -⟩ := commit_cases hpending obs
    refine hseen.of_dirs houtputs (fun r call hcall => Or.inl ?_) fun path hdir => ?_
    · exact hrecoveries ▸ hcall
    · exact (congrFun hdirs path).trans hdir
  | select recovery key =>
    refine hseen.of_dirs rfl (fun r call hcall => ?_) fun _ hdir => hdir
    simp only [PublicationFarm.step, Function.update_apply] at hcall
    split_ifs at hcall
    · obtain rfl := Option.some.inj hcall
      exact Or.inr (by simp)
    · exact Or.inl hcall
  | access => exact hseen.access h horder
  | crash recovery =>
    refine hseen.of_dirs rfl (fun r call hcall => ?_) fun _ hdir => hdir
    simp only [PublicationFarm.step, Function.update_apply] at hcall
    split_ifs at hcall
    exact Or.inl hcall
  | mark => exact hseen

theorem seen_of_orderly (hs : (orderlyPublications root).Reachable s) : Seen root s := by
  induction hs with
  | init h => exact fun recovery _ _ _ _ hcall => by simp [h.2.2.2.2 recovery] at hcall
  | step hr enabled ih =>
    exact ih.step (publicationInv_of_reachable (orderly_reachable hr)) enabled.1 enabled.2

/-- The error needs a row whose two directories are both there at the two looks. -/
theorem recoverAccess_ne_bothDirectories (h : s.Inv root) (hseen : Seen root s) {recovery : ℕ}
    {call : Recovery} (hcall : s.recoveries recovery = some call) (now : ℚ) :
    (recoverAccess root now call s.farm.dirs s.farm.db).1 ≠ .error bothDirectories := by
  obtain ⟨rows, stage⟩ := call
  cases rows with
  | nil => simp [recoverAccess]
  | cons entry rest =>
    obtain ⟨key, row⟩ := entry
    obtain ⟨p, out, -, hof⟩ := (h.recovering recovery _ hcall).rows _ List.mem_cons_self
    have hsingle := h.single _ _ hof.1
    cases stage with
    | lookFinal =>
      have hdir := hseen _ _ _ _ _ hcall hof.1
      rw [hsingle, Bool.not_eq_true'] at hdir
      rw [access_lookFinal hof, hdir]
      simp
    | rename =>
      rw [access_rename hof hsingle]
      split_ifs <;> simp [bothDirectories]
    | look => simp [access_look hof]
    | lookAgain => simp [access_lookAgain hof]
    | lookPublished => simp [access_lookPublished hof]
    | update => simp [access_update]

/-! ## Crash-safe publication -/

theorem not_relativeTo_completedRoot (out : Outputs) :
    relativeTo (completedRoot root) (provisionalDir root out) = false := by
  rw [← Bool.not_eq_true, relativeTo, List.isPrefixOf_iff_prefix]
  simp only [completedRoot, provisionalDir, provisionalRoot, List.append_assoc,
    List.prefix_append_right_inj]
  intro h
  have := (List.cons_prefix_cons.1 h).2
  simp at this

/-- Publications, completed jobs, imported runs and directories agree in every state, a
publication only moves on, a recovery that runs alone completes all of them and a second one
changes nothing; the error about both directories is out of reach as long as no recovery renames
a directory that another one has seen and not yet compared with the final one. -/
theorem publications_crash_safe (hs : (publications root).Reachable s) :
    (∀ key, (s.farm.db.publications.row key).isSome = true ↔
      (∃ row, s.farm.db.queue.row key.1 = some row ∧ row.status = .completed ∧
        row.fencingToken = key.2) ∧ Imported s key) ∧
    (∀ path, s.farm.dirs path = true → relativeTo (completedRoot root) path = true →
      ∃ key p, s.farm.db.publications.row key = some p ∧ path = root ++ p.finalLabel) ∧
    (∀ as t, (publications root).Steps s as t → Advances s.farm.db t.farm.db) ∧
    (∀ recovery, s.recoveries recovery = none →
      -- the recovery returns, and raises nothing on its way
      (∃ as t, Accesses recovery as ∧
        (publications root).Steps (s.step root (.select recovery none)) as t ∧
        t.recoveries recovery = none) ∧
      ∀ as t, Accesses recovery as →
        (publications root).Steps (s.step root (.select recovery none)) as t →
        (∀ call now, t.recoveries recovery = some call →
          ∃ call', (recoverAccess root now call t.farm.dirs t.farm.db).1 = .ok call') ∧
        (t.recoveries recovery = none →
          (∀ key p, t.farm.db.publications.row key = some p → p.state ≠ .pendingRename) ∧
          ∀ again key as' t', Accesses again as' →
            (publications root).Steps (t.step root (.select again key)) as' t' →
            t'.farm = t.farm ∧ t'.imports = t.imports ∧ t'.outputs = t.outputs)) ∧
    ((orderlyPublications root).Reachable s → ∀ recovery call now,
      s.recoveries recovery = some call →
      (recoverAccess root now call s.farm.dirs s.farm.db).1 ≠ .error bothDirectories) := by
  have h := publicationInv_of_reachable hs
  refine ⟨fun key => ?_, fun path hdir hpath => ?_, fun as t hrun => ?_, fun recovery hnone => ?_,
    fun horderly recovery call now hcall => ?_⟩
  · rw [← h.completed key]
    exact ⟨fun hsome => ⟨hsome, h.imported key hsome⟩, And.left⟩
  · obtain ⟨key, out, hout, rfl | ⟨rfl, hsome⟩⟩ := h.known path hdir
    · simp [not_relativeTo_completedRoot] at hpath
    · obtain ⟨p, hp⟩ := Option.isSome_iff_exists.1 hsome
      obtain ⟨out', hof, -⟩ := h.rows key p hp
      obtain rfl := Option.some.inj (hout.symm.trans hof.1)
      exact ⟨key, p, hp, by rw [hof.3, root_append_finalLabel]⟩
  · exact hrun.relates (R := fun s t => Advances s.farm.db t.farm.db) (fun _ => .refl _)
      (fun _ _ _ => Advances.trans)
      (fun _ _ hr ha => (publicationInv_of_reachable hr).advances ha) hs
  · have hselected := h.select recovery none
    have hcall : (s.step root (.select recovery none)).recoveries recovery =
        some ⟨pendingPublications none s.farm.db, .look⟩ := by simp [PublicationFarm.step]
    have hprogress : Progress root (s.step root (.select recovery none)) _ :=
      progress_select recovery
    refine ⟨hprogress.returns hselected hcall, fun as t has hrun => ?_⟩
    obtain ⟨halone, ht⟩ := Alone.run hrun has hselected (Or.inl ⟨_, hcall, hprogress⟩)
    refine ⟨fun call now hcall => ?_, fun hreturned => ?_⟩
    · rcases halone with ⟨call', hcall', hprogress'⟩ | ⟨hreturned, -⟩
      · obtain rfl := Option.some.inj (hcall.symm.trans hcall')
        rcases hprogress'.access ht hcall now with ⟨-, hreturn⟩ | ⟨call', hreply, -⟩
        · exact ⟨none, by rw [hreturn]⟩
        · exact ⟨some call', hreply⟩
      · simp [hcall] at hreturned
    · rcases halone with ⟨call', hcall', -⟩ | ⟨-, hnonePending⟩
      · simp [hcall'] at hreturned
      · exact ⟨hnonePending, fun again key as' t' has' hrun' =>
          recovery_of_nonePending hnonePending has' hrun'⟩
  · exact recoverAccess_ne_bothDirectories h (seen_of_orderly horderly) hcall now

/-- One job that is published; the recovery of its worker and one that another worker starts both
see the provisional directory, and the second renames it. -/
def overlappingRun : List PublicationAction :=
  let claim : Claim := ⟨1, "worker-0", 1⟩
  [.call (.enqueue ⟨"spec.yaml", 100, none, none⟩ "t0"),
    .call (.claim 0 ⟨some "worker-0", 10, some 100⟩ ⟨100, 100⟩ "t1"),
    .writeOutputs (1, 1) ⟨"run-one", .identity "strategy_lab_publication_generation.v1" claim, {}⟩,
    .publish 0 claim (some 101) 101,
    .commit 0 ⟨⟨101, 101⟩, "t2", "t3", none⟩,
    .select 0 (some (1, 1)), .select 1 none,
    .access 0 101, .access 1 101, .access 1 101, .access 1 101, .access 1 101]

def idlePublications : PublicationFarm where
  farm := idleFarm
  imports := .empty
  outputs := .empty
  recoveries := fun _ => none

def overlappingFarm : PublicationFarm := (publications ["lab"]).run idlePublications overlappingRun

theorem overlappingFarm_reachable : (publications ["lab"]).Reachable overlappingFarm :=
  Machine.reachable_run overlappingRun
    ⟨⟨rfl, fun _ => rfl⟩, rfl, rfl, rfl, fun _ => rfl⟩
    ⟨⟨trivial, trivial⟩, ⟨rfl, trivial⟩, ⟨rfl, by intro _ _ h; cases h⟩,
      ⟨rfl, Option.isSome_iff_ne_none.1 (by decide +kernel)⟩, ⟨_, _, rfl⟩, rfl, rfl,
      Option.isSome_iff_ne_none.1 (by decide +kernel),
      Option.isSome_iff_ne_none.1 (by decide +kernel),
      Option.isSome_iff_ne_none.1 (by decide +kernel),
      Option.isSome_iff_ne_none.1 (by decide +kernel),
      Option.isSome_iff_ne_none.1 (by decide +kernel), trivial⟩

def raisedBy {α : Type} : Except JobError α → Option JobError
  | .error e => some e
  | .ok _ => none

theorem raisedBy_eq_some {α : Type} {reply : Except JobError α} {e : JobError} :
    raisedBy reply = some e ↔ reply = .error e := by
  cases reply <;> simp [raisedBy]

/-- The recovery that looked first takes the renamed directory for a second one. -/
theorem overlapping_recovery_raises :
    ¬ ∀ s, (publications ["lab"]).Reachable s → ∀ recovery call now,
      s.recoveries recovery = some call →
      (recoverAccess ["lab"] now call s.farm.dirs s.farm.db).1 ≠ .error bothDirectories := by
  intro h
  have hraises : (overlappingFarm.recoveries 0).bind (fun call => raisedBy
      (recoverAccess ["lab"] 101 call overlappingFarm.farm.dirs overlappingFarm.farm.db).1) =
      some bothDirectories := by
    decide +kernel
  obtain ⟨call, hcall, hreply⟩ := Option.bind_eq_some_iff.1 hraises
  exact h overlappingFarm overlappingFarm_reachable 0 call 101 hcall (raisedBy_eq_some.1 hreply)

theorem publications_crash_safe_overlappingFarm :
    Advances overlappingFarm.farm.db
      ((publications ["lab"]).step overlappingFarm (.mark (1, 1) 102)).farm.db := by
  obtain ⟨-, -, hadvances, -⟩ := publications_crash_safe overlappingFarm_reachable
  exact hadvances [.mark (1, 1) 102] _ (.cons trivial (.nil _))

end ResearchLab.ComputeQueue
