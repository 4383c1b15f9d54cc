import ResearchLab.RuntimeStorage.Rebuild

/-!
# What calls leave to rebuild

A call touches one stream at a time and keeps it rebuildable, so that along a whole run the index
and the tails are what the files still hold.
-/
namespace ResearchLab.RuntimeStorage
open Foundation

variable {φ δ : Type} [DecidableEq δ] {py : Python φ δ} {cap : RuntimeStorageCapability}
  {quiet : String → Bool} {p : RuntimeStreamPolicy} {a : Answers} {lines : List Bytes}
  {rows : List (Row φ)} {index' : Index δ} {root root' : Root δ}

/-! ## Calls that touch one stream -/

/-- Nothing but one stream is touched. -/
structure OnlyStream (p : RuntimeStreamPolicy) (root root' : Root δ) : Prop where
  files : ∀ path, path ≠ p.relativePath → root'.files path = root.files path
  segments : ∀ id, id ≠ p.streamId → root'.segments id = root.segments id
  tails : ∀ id, id ≠ p.streamId → root'.tails id = root.tails id
  keys : ∀ id, id ≠ p.streamId → root'.index.semanticKeys id = root.index.semanticKeys id
  latest : p.streamId ≠ "llm.invocations" → root'.index.llmLatest = root.index.llmLatest

omit [DecidableEq δ] in
theorem tailsAfter_of_ne {id : String} (hne : id ≠ p.streamId) :
    root.tailsAfter p lines id = root.tails id := by
  unfold Root.tailsAfter
  split
  · rfl
  · exact Function.update_of_ne hne _ _

namespace OnlyStream

variable {root'' : Root δ} {q : RuntimeStreamPolicy}

omit [DecidableEq δ] in
theorem refl (p : RuntimeStreamPolicy) (root : Root δ) : OnlyStream p root root :=
  ⟨fun _ _ => rfl, fun _ _ => rfl, fun _ _ => rfl, fun _ _ => rfl, fun _ => rfl⟩

omit [DecidableEq δ] in
theorem trans (h : OnlyStream p root root') (h' : OnlyStream p root' root'') :
    OnlyStream p root root'' where
  files path hne := (h'.files path hne).trans (h.files path hne)
  segments id hne := (h'.segments id hne).trans (h.segments id hne)
  tails id hne := (h'.tails id hne).trans (h.tails id hne)
  keys id hne := (h'.keys id hne).trans (h.keys id hne)
  latest hne := (h'.latest hne).trans (h.latest hne)

omit [DecidableEq δ] in
theorem sameFor (h : OnlyStream p root root') (hid : q.streamId ≠ p.streamId)
    (hpath : q.relativePath ≠ p.relativePath) : SameFor root root' q where
  files := h.files _ hpath
  segments := h.segments _ hid
  tails := h.tails _ hid
  keys := h.keys _ hid
  latest hq := h.latest fun hp => hid (hq.trans hp.symm)

omit [DecidableEq δ] in
theorem bounded (h : OnlyStream p root root') (hp : p ∈ cap.streams) (hroot : Bounded cap root) :
    Bounded cap root' where
  keys id hid := by
    have hne : id ≠ p.streamId := fun heq => hid (heq ▸ List.mem_map_of_mem hp)
    exact (h.keys id hne).trans (hroot.keys id hid)
  latest hllm := by
    have hne : p.streamId ≠ "llm.invocations" := fun heq => hllm (heq ▸ List.mem_map_of_mem hp)
    exact (h.latest hne).trans (hroot.latest hllm)

omit [DecidableEq δ] in
theorem write (data : Bytes) : OnlyStream p root (root.write p.relativePath data) :=
  ⟨fun _ hne => Function.update_of_ne hne _ _, fun _ _ => rfl, fun _ _ => rfl, fun _ _ => rfl,
    fun _ => rfl⟩

omit [DecidableEq δ] in
theorem sealFile (name : ℕ) : OnlyStream p root (root.sealFile p p.relativePath name) :=
  ⟨fun _ hne => Function.update_of_ne hne _ _, fun _ hne => Function.update_of_ne hne _ _,
    fun _ _ => rfl, fun _ _ => rfl, fun _ => rfl⟩

omit [DecidableEq δ] in
theorem appendTail (lines : List Bytes) : OnlyStream p root (root.appendTail p lines) := by
  rw [appendTail_eq]
  refine ⟨fun _ _ => rfl, fun _ _ => rfl, fun id hne => ?_, fun _ _ => rfl, fun _ => rfl⟩
  exact tailsAfter_of_ne hne

omit [DecidableEq δ] in
theorem archive (m : Maintenance) :
    OnlyStream p root (m.archivePendingSegments [p.streamId] root) := by
  unfold Maintenance.archivePendingSegments
  split
  · refine ⟨fun _ _ => rfl, fun id hne => ?_, fun _ _ => rfl, fun _ _ => rfl, fun _ => rfl⟩
    exact if_neg (by simpa using hne)
  · exact refl p root

theorem indexed {connected : Bool} (h : indexRows py connected p rows root.index = some index') :
    OnlyStream p root { root with index := index' } := by
  unfold indexRows at h
  rw [Option.bind_eq_bind, Option.bind_eq_some_iff] at h
  obtain ⟨values, -, h⟩ := h
  by_cases hflat : values.flatten = []
  · rw [if_pos hflat] at h
    obtain rfl := Option.some.inj h
    exact refl p root
  rw [if_neg hflat] at h
  by_cases hconnected : connected = false
  · simp [hconnected] at h
  rw [if_neg hconnected, Option.bind_eq_bind, Option.bind_eq_some_iff] at h
  obtain ⟨latest, hlatest, h⟩ := h
  obtain rfl := Option.some.inj h
  refine ⟨fun _ _ => rfl, fun _ _ => rfl, fun _ _ => rfl,
    fun _ hne => Function.update_of_ne hne _ _, fun hne => ?_⟩
  rw [latestOf, if_neg hne] at hlatest
  exact (Option.some.inj hlatest).symm

omit [DecidableEq δ] in
theorem sealActive (a : Answers) :
    OnlyStream p root (sealActive a p p.relativePath root).1 := by
  unfold RuntimeStorage.sealActive
  split_ifs
  · exact refl p root
  · exact refl p root
  · exact refl p root
  all_goals exact (sealFile a.name).trans (archive a.maintenance)

theorem settleLines (a : Answers) (lines : List Bytes) :
    OnlyStream p root (settleLines py a p p.relativePath lines root).1 := by
  unfold RuntimeStorage.settleLines
  cases hindex : indexRows py a.connected p (decodeJsonLines py lines) root.index with
  | none => exact refl p root
  | some index =>
      dsimp only
      split_ifs
      · exact OnlyStream.indexed hindex
      · exact (OnlyStream.indexed hindex).trans ((appendTail lines).trans (sealActive a))

theorem appendCoordinated (a : Answers) (lines : List Bytes) :
    OnlyStream p root (appendCoordinated py a p p.relativePath lines root).1 := by
  unfold RuntimeStorage.appendCoordinated
  split_ifs
  · exact refl p root
  · exact refl p root
  · exact refl p root
  · exact write _
  · exact write _
  · exact (write _).trans (settleLines a lines)

end OnlyStream

/-! ## Quiet streams -/

section Quiet

omit [DecidableEq δ] in
theorem Quiet.write {data : Bytes} (h : Quiet py root p)
    (hdata : Keyless py (rowsOf py ((root.files p.relativePath).getD [] ++ data))) :
    Quiet py (root.write p.relativePath data) p :=
  ⟨h.stdout, by rwa [write_file], h.segments, h.keys, h.latest⟩

omit [DecidableEq δ] in
theorem keyless_nil : Keyless py (rowsOf py []) := fun _ hrow => absurd hrow List.not_mem_nil

omit [DecidableEq δ] in
theorem Quiet.sealFile (h : Quiet py root p) (name : ℕ) :
    Quiet py (root.sealFile p p.relativePath name) p := by
  refine ⟨h.stdout, ?_, ?_, h.keys, h.latest⟩
  · simp [Root.sealFile, keyless_nil]
  · intro s hs
    simp only [Root.sealFile, Function.update_self, List.mem_append, List.mem_singleton] at hs
    obtain hs | rfl := hs
    · exact h.segments s hs
    · exact h.file

omit [DecidableEq δ] in
theorem Quiet.archive (h : Quiet py root p) (m : Maintenance) (streams : List String) :
    Quiet py (m.archivePendingSegments streams root) p := by
  unfold Maintenance.archivePendingSegments
  split
  · refine ⟨h.stdout, h.file, ?_, h.keys, h.latest⟩
    dsimp only
    split
    · intro s hs
      obtain ⟨s', hs', rfl⟩ := List.mem_map.1 hs
      rw [bytes_archive]
      exact h.segments s' hs'
    · exact h.segments
  · exact h

omit [DecidableEq δ] in
theorem Quiet.sealActive (h : Quiet py root p) (a : Answers) :
    Quiet py (sealActive a p p.relativePath root).1 p := by
  unfold RuntimeStorage.sealActive
  split_ifs
  · exact h
  · exact h
  · exact h
  all_goals exact (h.sealFile a.name).archive _ _

theorem Quiet.settleLines (h : Quiet py root p) (a : Answers)
    (hlines : Keyless py (decodeJsonLines py lines)) :
    Quiet py (settleLines py a p p.relativePath lines root).1 p := by
  have hindex : indexRows py a.connected p (decodeJsonLines py lines) root.index =
      some root.index := indexRows_of_keyless hlines
  have htail : root.appendTail p lines = root := if_pos h.stdout
  unfold RuntimeStorage.settleLines
  rw [hindex]
  simp only [h.stdout, Bool.true_eq_false, false_and, if_false, htail]
  exact h.sealActive a

theorem Quiet.append (h : Quiet py root p) (a : Answers)
    (happend : a.Writes → QuietAppend py a p lines root) :
    Quiet py (appendCoordinated py a p p.relativePath lines root).1 p := by
  unfold appendCoordinated
  by_cases hlocked : a.locked = false
  · simpa [hlocked] using h
  by_cases hregular : a.regular = false
  · simpa [hlocked, hregular] using h
  by_cases hopened : a.opened = false
  · simpa [hlocked, hregular, hopened] using h
  obtain ⟨hlines, hdata⟩ := happend ⟨by simpa using hlocked, by simpa using hregular,
    by simpa using hopened⟩
  rw [if_neg hlocked, if_neg hregular, if_neg hopened]
  have hwrite := h.write hdata
  split_ifs
  · exact hwrite
  · exact hwrite
  · exact hwrite.settleLines a hlines

end Quiet

/-! ## Orderly streams -/

section Orderly

omit [DecidableEq δ] in
theorem linesOf_eq (root : Root δ) (p : RuntimeStreamPolicy) :
    root.linesOf p = (root.segments p.streamId).flatMap (fun s => splitBytes s.bytes) ++
      splitBytes ((root.files p.relativePath).getD []) := by
  rw [Root.linesOf, List.flatMap_append, List.flatMap_map]
  congr 1
  cases root.files p.relativePath with
  | none => rfl
  | some data => simp

/-- Lines that are written, indexed and in the tail are the last lines of the stream. -/
theorem Orderly.extend {index : Index δ} (h : Orderly py root p)
    (hwhole : ∀ l ∈ lines, WholeLine l) (hkeyed : Keyed py p (decodeJsonLines py lines))
    (hindex : indexRows py true p (decodeJsonLines py lines) root.index = some index) :
    Orderly py (({ root.write p.relativePath lines.flatten with index } : Root δ).appendTail p lines)
      p := by
  obtain ⟨values, hvalues, hkeys⟩ := h.keys
  obtain ⟨values', latest, hvalues', hlatest, rfl⟩ := (indexRows_eq_some hkeyed).1 hindex
  have hfile : ∀ l ∈ splitBytes ((root.files p.relativePath).getD []), WholeLine l := fun l hl =>
    h.whole l (linesOf_eq root p ▸ List.mem_append_right _ hl)
  rw [appendTail_eq]
  set root' : Root δ := { root.write p.relativePath lines.flatten with
    index := root.index.extend p values'.flatten latest } with hroot'
  have hlines : ({ root' with tails := root'.tailsAfter p lines } : Root δ).linesOf p =
      root.linesOf p ++ lines := by
    rw [linesOf_eq, linesOf_eq, List.append_assoc, ← splitBytes_append_flatten hfile hwhole,
      ← write_file]
    rfl
  constructor
  · exact h.pending
  · exact h.ascending
  · rw [hlines]
    intro l hl
    obtain hl | hl := List.mem_append.1 hl
    · exact h.whole l hl
    · exact hwhole l hl
  · rw [hlines, decodeJsonLines_append]
    exact h.keyed.append hkeyed
  · refine ⟨values ++ values', ?_, ?_⟩
    · rw [hlines, decodeJsonLines_append, List.mapM_append, hvalues, hvalues']
      rfl
    · rw [List.flatten_append, List.foldl_append, ← hkeys]
      exact Function.update_self ..
  · intro hp
    rw [hlines, decodeJsonLines_append, latestOf_append, h.latest hp]
    exact hlatest
  · intro hp
    refine .inr ?_
    have htail : root'.tailLines p = (root.linesOf p).rtake p.tailRecords := by
      obtain ⟨hsegments, hnone, htails⟩ | htails := h.tail hp
      · rw [linesOf_eq, hsegments, hnone, Root.tailLines]
        show ((root.tails p.streamId).map splitBytes).getD [] = _
        rw [htails]
        simp [splitBytes, splitLines, List.rtake]
      · show ((root.tails p.streamId).map splitBytes).getD [] = _
        rw [htails]
        exact splitBytes_flatten fun l hl => h.whole l (mem_of_mem_rtake hl)
    show root'.tailsAfter p lines p.streamId = _
    rw [hlines, Root.tailsAfter, hp, if_neg Bool.false_ne_true, Function.update_self, htail,
      rtake_rtake_append]

/-- Sealing a file that holds something leaves the lines as they are. -/
theorem Orderly.sealFile {name : ℕ} (h : Orderly py root p)
    (hfile : (root.files p.relativePath).getD [] ≠ [])
    (hname : ∀ s ∈ root.segments p.streamId, s.name < name) :
    Orderly py (root.sealFile p p.relativePath name) p := by
  have hsegments : (root.sealFile p p.relativePath name).segments p.streamId =
      root.segments p.streamId ++ [⟨name, (root.files p.relativePath).getD [], .sealed⟩] :=
    Function.update_self ..
  have hlines : (root.sealFile p p.relativePath name).linesOf p = root.linesOf p := by
    rw [linesOf_eq, hsegments, linesOf_eq]
    simp [Root.sealFile, splitBytes, splitLines]
  constructor
  · intro s hs
    obtain hs | hs := List.mem_append.1 (hsegments ▸ hs)
    · exact h.pending s hs
    · rw [List.mem_singleton.1 hs]
  · rw [hsegments, List.pairwise_append]
    refine ⟨h.ascending, List.pairwise_singleton _ _, fun s hs s' hs' => ?_⟩
    rw [List.mem_singleton.1 hs']
    exact hname s hs
  · exact hlines ▸ h.whole
  · exact hlines ▸ h.keyed
  · rw [hlines]
    exact h.keys
  · rw [hlines]
    exact h.latest
  · intro hp
    rw [hlines]
    obtain ⟨-, hnone, -⟩ | htail := h.tail hp
    · rw [hnone] at hfile
      exact absurd rfl hfile
    · exact .inr htail

omit [DecidableEq δ] in
/-- Where every segment stays, archiving does nothing to the stream. -/
theorem Orderly.archive_same (m : Maintenance) (streams : List String)
    (hpending : ∀ s ∈ root.segments p.streamId, s.place = .sealed)
    (hstays : m.catalogOpened = true → p.streamId ∈ streams →
      ∀ s ∈ root.segments p.streamId, Stays m p.streamId s.name) :
    SameFor root (m.archivePendingSegments streams root) p := by
  unfold Maintenance.archivePendingSegments
  split
  · refine ⟨rfl, ?_, rfl, rfl, fun _ => rfl⟩
    dsimp only
    split
    · refine (List.map_congr_left fun s hs => ?_).trans (List.map_id _)
      have hplace := hpending s hs
      have hrecover : m.recover p.streamId s = s := if_neg (by simp [hplace])
      rw [hrecover, Maintenance.archive, if_pos hplace]
      obtain hstay | hstay := hstays ‹_› ‹_› s hs
      · rw [hstay]
        rfl
      · rw [hstay]
        rfl
    · rfl
  · exact ⟨rfl, rfl, rfl, rfl, fun _ => rfl⟩

omit [DecidableEq δ] in
/-- A file as long as the bound holds something. -/
theorem ne_nil_of_max_le {data : Bytes} (h : p.maxActiveBytes ≤ data.length) : data ≠ [] := by
  rintro rfl
  exact absurd h (not_le.2 p.maxActive_pos)

theorem Orderly.sealActive (h : Orderly py root p)
    (hlast : a.measured = true → a.renamed = true →
      p.maxActiveBytes ≤ ((root.files p.relativePath).getD []).length →
        ∀ s ∈ root.segments p.streamId, s.name < a.name)
    (hstays : a.measured = true → a.renamed = true →
      p.maxActiveBytes ≤ ((root.files p.relativePath).getD []).length →
        a.maintenance.catalogOpened = true →
          (∀ s ∈ root.segments p.streamId, Stays a.maintenance p.streamId s.name) ∧
            Stays a.maintenance p.streamId a.name) :
    Orderly py (sealActive a p p.relativePath root).1 p := by
  unfold RuntimeStorage.sealActive
  by_cases hmeasured : a.measured = false
  · simpa [hmeasured] using h
  by_cases hsize : ((root.files p.relativePath).getD []).length < p.maxActiveBytes
  · simpa [hmeasured, hsize] using h
  by_cases hrenamed : a.renamed = false
  · simpa [hmeasured, hsize, hrenamed] using h
  rw [if_neg hmeasured, if_neg hsize, if_neg hrenamed]
  rw [Bool.not_eq_false] at hmeasured hrenamed
  have hsealed := h.sealFile (ne_nil_of_max_le (not_lt.1 hsize))
    (hlast hmeasured hrenamed (not_lt.1 hsize))
  refine hsealed.same (Orderly.archive_same _ _ hsealed.pending fun hcatalog _ s hs => ?_)
  obtain ⟨hold, hnew⟩ := hstays hmeasured hrenamed (not_lt.1 hsize) hcatalog
  simp only [Root.sealFile, Function.update_self, List.mem_append, List.mem_singleton] at hs
  obtain hs | rfl := hs
  · exact hold s hs
  · exact hnew

theorem Orderly.append (h : Orderly py root p)
    (happend : a.Writes → OrderlyAppend py a p lines root) :
    Orderly py (appendCoordinated py a p p.relativePath lines root).1 p := by
  unfold appendCoordinated
  by_cases hlocked : a.locked = false
  · simpa [hlocked] using h
  by_cases hregular : a.regular = false
  · simpa [hlocked, hregular] using h
  by_cases hopened : a.opened = false
  · simpa [hlocked, hregular, hopened] using h
  obtain ⟨hwritten, hsynced, hindexed, htail, hwhole, hkeyed, hlast, hstays⟩ :=
    happend ⟨by simpa using hlocked, by simpa using hregular, by simpa using hopened⟩
  have hall : a.written lines = lines.flatten := by rw [Answers.written, hwritten]
  obtain ⟨index, hindex⟩ := Option.ne_none_iff_exists'.1 hindexed
  have htail' : ¬(p.isStdout = false ∧ a.tailWritten = false) := by
    obtain htail | htail := htail <;> simp [htail]
  rw [if_neg hlocked, if_neg hregular, if_neg hopened, hwritten, hall, settleLines]
  have hindex' : indexRows py a.connected p (decodeJsonLines py lines)
      (root.write p.relativePath lines.flatten).index = some index := hindex
  simp only [Option.isSome_none, Bool.false_eq_true, if_false, hsynced, Bool.true_eq_false, hindex',
    htail']
  have hextended := h.extend hwhole hkeyed (indexRows_connected hindex)
  have hfile : (((({ root.write p.relativePath lines.flatten with index } :
      Root δ).appendTail p lines).files p.relativePath).getD []).length =
        ((root.files p.relativePath).getD [] ++ a.written lines).length := by
    rw [appendTail_files, hall, ← write_file]
  refine hextended.sealActive (fun hm hr hsize => ?_) fun hm hr hsize hcatalog => ?_
  · rw [appendTail_segments]
    exact hlast ⟨hm, hr, hfile ▸ hsize⟩
  · rw [appendTail_segments]
    exact hstays ⟨hm, hr, hfile ▸ hsize⟩ hcatalog

end Orderly

/-! ## Runs -/

/-- Every stream is kept, and the index holds nothing else. -/
structure Inv (py : Python φ δ) (cap : RuntimeStorageCapability) (quiet : String → Bool)
    (root : Root δ) : Prop where
  kept : ∀ p ∈ cap.streams, Kept py quiet root p
  bounded : Bounded cap root

theorem Kept.append (h : Kept py quiet root p)
    (happend : a.Writes → if quiet p.streamId then QuietAppend py a p lines root
      else OrderlyAppend py a p lines root) :
    Kept py quiet (appendCoordinated py a p p.relativePath lines root).1 p := by
  unfold Kept at h ⊢
  split at h
  · rw [if_pos ‹_›]
    exact h.append a fun hwrites => by simpa [‹quiet p.streamId = true›] using happend hwrites
  · rw [if_neg ‹_›]
    exact h.append fun hwrites => by
      have := happend hwrites
      rwa [if_neg ‹_›] at this

/-- A call on one stream that keeps it keeps them all. -/
theorem Inv.of_only (h : Inv py cap quiet root)
    (hpaths : (cap.streams.map RuntimeStreamPolicy.relativePath).Nodup) (hp : p ∈ cap.streams)
    (honly : OnlyStream p root root') (hkept : Kept py quiet root' p) :
    Inv py cap quiet root' := by
  refine ⟨fun q hq => ?_, honly.bounded hp h.bounded⟩
  by_cases hid : q.streamId = p.streamId
  · obtain rfl := List.inj_on_of_nodup_map cap.ids_nodup hq hp hid
    exact hkept
  · have hpath : q.relativePath ≠ p.relativePath := fun heq =>
      hid (congrArg _ (List.inj_on_of_nodup_map hpaths hq hp heq))
    exact (h.kept q hq).same (honly.sameFor hid hpath)

omit [DecidableEq δ] in
theorem policyFor_some {path : String} (h : cap.policyFor path = some p) :
    p ∈ cap.streams ∧ p.relativePath = path :=
  ⟨List.mem_of_find?_eq_some h, by simpa using List.find?_some h⟩

theorem Inv.append {path : String} (h : Inv py cap quiet root)
    (hpaths : (cap.streams.map RuntimeStreamPolicy.relativePath).Nodup)
    (hcall : Rebuildable py cap quiet root (.append a path lines)) :
    Inv py cap quiet (appendRuntimeLines py a (.ready cap) path lines root).1 := by
  by_cases hlines : lines = []
  · rw [appendRuntimeLines, if_pos hlines]
    exact h
  unfold appendRuntimeLines
  rw [if_neg hlines]
  dsimp only
  cases hpolicy : cap.policyFor path with
  | none =>
      obtain ⟨-, hroot, -⟩ | ⟨-, hroot⟩ := appendPlain_cases a path lines root
      · dsimp only
        rw [hroot]
        refine ⟨fun p hp => (h.kept p hp).same ⟨?_, rfl, rfl, rfl, fun _ => rfl⟩, h.bounded.1,
          h.bounded.2⟩
        have hne : p.relativePath ≠ path := by
          simpa using List.find?_eq_none.1 hpolicy p hp
        exact Function.update_of_ne hne _ _
      · dsimp only
        rw [hroot]
        exact h
  | some p =>
      obtain ⟨hp, rfl⟩ := policyFor_some hpolicy
      exact h.of_only hpaths hp (.appendCoordinated a lines)
        ((h.kept p hp).append fun hwrites => hcall hlines hwrites p hpolicy)

theorem Kept.sealOversized {b : Sealing} (h : Kept py quiet root p)
    (hname : quiet p.streamId = false →
      p.maxActiveBytes ≤ ((root.files p.relativePath).getD []).length →
        ∀ s ∈ root.segments p.streamId, s.name < b.name p.streamId) (raised : Bool) :
    Kept py quiet (sealOversized b (root, raised) p).1 p := by
  unfold RuntimeStorage.sealOversized
  split_ifs with hskip hfails
  · exact h
  · exact h
  · obtain ⟨-, hsize⟩ := not_or.1 hskip
    unfold Kept at h ⊢
    split at h
    · rw [if_pos ‹_›]
      exact h.sealFile _
    · rw [if_neg ‹_›]
      exact h.sealFile (ne_nil_of_max_le (not_lt.1 hsize))
        (hname (Bool.eq_false_iff.2 ‹_›) (not_lt.1 hsize))

omit [DecidableEq δ] in
theorem OnlyStream.sealOversized {b : Sealing} (raised : Bool) :
    OnlyStream p root (sealOversized b (root, raised) p).1 := by
  unfold RuntimeStorage.sealOversized
  split_ifs
  · exact .refl p root
  · exact .refl p root
  · exact .sealFile _

theorem Inv.foldl_sealOversized {b : Sealing}
    (hpaths : (cap.streams.map RuntimeStreamPolicy.relativePath).Nodup)
    {qs : List RuntimeStreamPolicy} (hqs : ∀ q ∈ qs, q ∈ cap.streams)
    (hids : (qs.map RuntimeStreamPolicy.streamId).Nodup) (raised : Bool)
    (h : Inv py cap quiet root)
    (hname : ∀ p ∈ qs, quiet p.streamId = false →
      p.maxActiveBytes ≤ ((root.files p.relativePath).getD []).length →
        ∀ s ∈ root.segments p.streamId, s.name < b.name p.streamId) :
    Inv py cap quiet (qs.foldl (RuntimeStorage.sealOversized b) (root, raised)).1 := by
  induction qs generalizing root raised with
  | nil => exact h
  | cons q qs ih =>
      rw [List.map_cons, List.nodup_cons] at hids
      have hq := List.mem_cons_self (a := q) (l := qs)
      have honly : OnlyStream q root (RuntimeStorage.sealOversized b (root, raised) q).1 :=
        .sealOversized raised
      have hkept := (h.kept q (hqs q hq)).sealOversized (hname q hq) raised
      rw [List.foldl_cons]
      generalize RuntimeStorage.sealOversized b (root, raised) q = r at honly hkept ⊢
      refine ih (fun p hp => hqs p (List.mem_cons_of_mem _ hp)) hids.2 r.2
        (h.of_only hpaths (hqs q hq) honly hkept) fun p hp => ?_
      -- the streams behind this one are as they were
      have hid : p.streamId ≠ q.streamId := fun heq => hids.1 (heq ▸ List.mem_map_of_mem hp)
      have hpath : p.relativePath ≠ q.relativePath := fun heq => hid (congrArg _
        (List.inj_on_of_nodup_map hpaths (hqs p (List.mem_cons_of_mem _ hp)) (hqs q hq) heq))
      have hsame := honly.sameFor hid hpath
      rw [hsame.files, hsame.segments]
      exact hname p (List.mem_cons_of_mem _ hp)

theorem Inv.sealing {b : Sealing} (h : Inv py cap quiet root)
    (hpaths : (cap.streams.map RuntimeStreamPolicy.relativePath).Nodup)
    (hcall : Rebuildable py cap quiet root (.sealing b)) :
    Inv py cap quiet (sealOversizedActiveStreams cap b root).1 := by
  unfold sealOversizedActiveStreams
  split
  · exact h
  · exact h.foldl_sealOversized hpaths (fun _ hq => hq) cap.ids_nodup false hcall

theorem Inv.archive {m : Maintenance} {streamIds : List String} (h : Inv py cap quiet root)
    (hcall : Rebuildable py cap quiet root (.archive m streamIds)) :
    Inv py cap quiet (m.archivePendingSegments (selected cap streamIds) root) := by
  have hindex : (m.archivePendingSegments (selected cap streamIds) root).index = root.index := by
    unfold Maintenance.archivePendingSegments
    split <;> rfl
  refine ⟨fun p hp => ?_, ?_⟩
  · have hkept := h.kept p hp
    unfold Kept at hkept ⊢
    split at hkept
    · rw [if_pos ‹_›]
      exact hkept.archive m _
    · rw [if_neg ‹_›]
      exact hkept.same (Orderly.archive_same m _ hkept.pending fun hcatalog hselected =>
        hcall hcatalog _ hselected (Bool.eq_false_iff.2 ‹_›))
  · exact ⟨hindex ▸ h.bounded.1, hindex ▸ h.bounded.2⟩

theorem Inv.call {c : Call} (h : Inv py cap quiet root)
    (hpaths : (cap.streams.map RuntimeStreamPolicy.relativePath).Nodup)
    (hcall : Rebuildable py cap quiet root c) : Inv py cap quiet (root.call py cap c) := by
  cases c with
  | append a path lines => exact h.append hpaths hcall
  | sealing b => exact h.sealing hpaths hcall
  | archive m streamIds => exact h.archive hcall

/-! ## The activation -/

/-- A stream whose file is as it was found, with nothing indexed and no tail. -/
structure Found (files : String → Option Bytes) (root : Root δ) (p : RuntimeStreamPolicy) :
    Prop where
  file : root.files p.relativePath = files p.relativePath
  segments : root.segments p.streamId = []
  tails : root.tails p.streamId = none
  keys : root.index.semanticKeys p.streamId = []
  latest : p.streamId = "llm.invocations" → root.index.llmLatest = Table.empty

variable {files : String → Option Bytes}

omit [DecidableEq δ] in
theorem Found.same (h : Found files root p) (hsame : SameFor root root' p) :
    Found files root' p where
  file := hsame.files.trans h.file
  segments := hsame.segments.trans h.segments
  tails := hsame.tails.trans h.tails
  keys := hsame.keys.trans h.keys
  latest hp := (hsame.latest hp).trans (h.latest hp)

omit [DecidableEq δ] in
theorem Found.filesOf (h : Found files root p) :
    root.filesOf p = (files p.relativePath).toList := by
  rw [Root.filesOf, Root.pending, h.segments, h.file]
  rfl

omit [DecidableEq δ] in
theorem Found.linesOf (h : Found files root p) :
    root.linesOf p = splitBytes ((files p.relativePath).getD []) := by
  rw [linesOf_eq, h.segments, h.file]
  rfl

omit [DecidableEq δ] in
theorem Found.quiet_of_keyless (h : Found files root p) (hp : p.isStdout = true)
    (hrows : Keyless py (rowsOf py ((files p.relativePath).getD []))) : Quiet py root p :=
  ⟨hp, h.file ▸ hrows, by simp [h.segments], h.keys, h.latest⟩

theorem Found.orderly_of_none (h : Found files root p) (hnone : files p.relativePath = none) :
    Orderly py root p := by
  have hlines : root.linesOf p = [] := by
    rw [h.linesOf, hnone]
    rfl
  constructor
  · simp [h.segments]
  · simp [h.segments]
  · simp [hlines]
  · rw [hlines]
    exact fun _ row hrow => absurd hrow List.not_mem_nil
  · rw [hlines]
    exact ⟨[], rfl, h.keys⟩
  · intro hp
    rw [hlines, latestOf, if_pos hp, h.latest hp]
    rfl
  · exact fun _ => .inl ⟨h.segments, h.file.trans hnone, h.tails⟩

/-- The rebuild of the activation indexes a file as if it had been appended. -/
theorem Found.orderly_of_some {data : Bytes} {values : List (List (SemanticKey δ))}
    {latest : Table String Latest} (h : Found files root p)
    (hdata : files p.relativePath = some data) (hwhole : ∀ l ∈ splitBytes data, WholeLine l)
    (hkeyed : Keyed py p (rowsOf py data))
    (hvalues : (rowsOf py data).mapM (semanticValues py) = some values)
    (hlatest : latestOf py p (rowsOf py data) root.index.llmLatest = some latest) :
    Orderly py { root with
      index := root.index.extend p values.flatten latest
      tails := root.tailsAfter p (splitBytes data) } p := by
  have hlines : ({ root with
      index := root.index.extend p values.flatten latest
      tails := root.tailsAfter p (splitBytes data) } : Root δ).linesOf p = splitBytes data := by
    rw [linesOf_eq, h.segments, h.file, hdata]
    rfl
  constructor
  · simp [h.segments]
  · simp [h.segments]
  · rwa [hlines]
  · rwa [hlines]
  · refine ⟨values, by rwa [hlines], ?_⟩
    rw [← h.keys]
    exact Function.update_self ..
  · intro hp
    rw [hlines, ← h.latest hp]
    exact hlatest
  · intro hp
    refine .inr ?_
    rw [hlines]
    show root.tailsAfter p (splitBytes data) p.streamId = _
    rw [Root.tailsAfter, hp, if_neg Bool.false_ne_true, Function.update_self, Root.tailLines,
      h.tails]
    rfl

theorem Found.rebuildStream (h : Found files root p) (hcap : p ∈ cap.streams)
    (hstdout : quiet p.streamId = true → p.isStdout = true)
    (hfound : FoundRebuildable py cap quiet files) :
    ∃ root', rebuildStream py (root, false) p = (root', false) ∧ OnlyStream p root root' ∧
      Kept py quiet root' p := by
  unfold RuntimeStorage.rebuildStream
  rw [h.filesOf]
  cases hdata : files p.relativePath with
  | none =>
      refine ⟨root, rfl, .refl p root, ?_⟩
      unfold Kept
      split
      · exact h.quiet_of_keyless (hstdout ‹_›) (by rw [hdata]; exact keyless_nil)
      · exact h.orderly_of_none hdata
  | some data =>
      have hcondition := hfound p hcap data hdata
      rw [Option.toList_some, List.foldl_cons, List.foldl_nil]
      by_cases hquiet : quiet p.streamId = true
      · rw [if_pos hquiet] at hcondition
        refine ⟨root, rebuildFile_of_keyless (hstdout hquiet) hcondition, .refl p root, ?_⟩
        rw [Kept, if_pos hquiet]
        exact h.quiet_of_keyless (hstdout hquiet) (by rw [hdata]; exact hcondition)
      · rw [if_neg hquiet] at hcondition
        obtain ⟨hwhole, hkeyed, hvalues, hlatest⟩ := hcondition
        obtain ⟨values, hvalues⟩ := Option.ne_none_iff_exists'.1 hvalues
        have hindexed : ∃ latest, latestOf py p (rowsOf py data) root.index.llmLatest = some latest := by
          by_cases hp : p.streamId = "llm.invocations"
          · rw [h.latest hp]
            exact Option.ne_none_iff_exists'.1 hlatest
          · exact ⟨_, if_neg hp⟩
        obtain ⟨latest, hlatest⟩ := hindexed
        have hflat : [data].flatMap splitBytes = splitBytes data := List.flatMap_singleton ..
        have hwhole' : p.isStdout = false →
            ∀ l ∈ root.tailLines p ++ [data].flatMap splitBytes, WholeLine l := by
          intro _
          rw [hflat, Root.tailLines, h.tails]
          exact hwhole
        have hrebuilt := foldl_rebuildFile (List.cons_ne_nil data []) (by rwa [hflat]) hwhole'
          (by rwa [hflat]) (by rwa [hflat])
        rw [hflat] at hrebuilt
        refine ⟨_, hrebuilt, ?_, ?_⟩
        · refine ⟨fun _ _ => rfl, fun _ _ => rfl, fun _ hne => tailsAfter_of_ne hne,
            fun _ hne => Function.update_of_ne hne _ _, fun hne => ?_⟩
          rw [latestOf, if_neg hne] at hlatest
          exact (Option.some.inj hlatest).symm
        · rw [Kept, if_neg hquiet]
          exact h.orderly_of_some hdata hwhole hkeyed hvalues hlatest

/-- The activation leaves every stream kept. -/
theorem foldl_found (hpaths : (cap.streams.map RuntimeStreamPolicy.relativePath).Nodup)
    (hstdout : ∀ p ∈ cap.streams, quiet p.streamId = true → p.isStdout = true)
    (hfound : FoundRebuildable py cap quiet files) (done : List RuntimeStreamPolicy)
    {rest : List RuntimeStreamPolicy} (hcap : cap.streams = done ++ rest) (hdone : ∀ p ∈ done, Kept py quiet root p)
    (hrest : ∀ p ∈ rest, Found files root p) (hbounded : Bounded cap root) :
    Inv py cap quiet (rest.foldl (rebuildStream py) (root, false)).1 := by
  induction rest generalizing done root with
  | nil =>
      rw [List.append_nil] at hcap
      exact ⟨fun p hp => hdone p (hcap ▸ hp), hbounded⟩
  | cons q rest ih =>
      have hq : q ∈ cap.streams := by simp [hcap]
      obtain ⟨root', hstep, honly, hkept⟩ :=
        (hrest q (List.mem_cons_self ..)).rebuildStream hq (hstdout q hq) hfound
      have hnodup : (done ++ q :: rest).Nodup := hcap ▸ .of_map _ cap.ids_nodup
      have hother : ∀ p, p ∈ done ∨ p ∈ rest → SameFor root root' p := by
        intro p hp
        have hne : p ≠ q := by grind
        have hmem : p ∈ cap.streams := by grind
        exact honly.sameFor (fun heq => hne (List.inj_on_of_nodup_map cap.ids_nodup hmem hq heq))
          fun heq => hne (List.inj_on_of_nodup_map hpaths hmem hq heq)
      rw [List.foldl_cons, hstep]
      refine ih (done ++ [q]) (by rw [hcap]; simp) (fun p hp => ?_)
        (fun p hp => (hrest p (List.mem_cons_of_mem _ hp)).same (hother p (.inr hp)))
        (honly.bounded hq hbounded)
      obtain hp | hp := List.mem_append.1 hp
      · exact (hdone p hp).same (hother p (.inl hp))
      · exact List.mem_singleton.1 hp ▸ hkept

/-- Behind an activation and calls that leave the streams rebuildable, a rebuild with full tails
changes no answer. -/
theorem rebuild_keeps_answers
    (hpaths : (cap.streams.map RuntimeStreamPolicy.relativePath).Nodup)
    (hstdout : ∀ p ∈ cap.streams, quiet p.streamId = true → p.isStdout = true)
    (hrun : (calls py cap quiet).Reachable root) (hfull : TailsFull cap quiet root) :
    SameAnswers py cap root (rebuildRuntimeSemanticIndex py cap root).1 := by
  have hinv : Inv py cap quiet root := by
    refine hrun.invariant (fun s hs => ?_) fun s c _ h hc => h.call hpaths hc
    obtain ⟨files, hfound, rfl⟩ := hs
    refine foldl_found hpaths hstdout hfound [] (List.nil_append _).symm (by simp) (fun p _ => ?_)
      ⟨fun _ _ => rfl, fun _ => rfl⟩
    exact ⟨rfl, rfl, rfl, rfl, fun _ => rfl⟩
  have hlines : ∀ p ∈ cap.streams, p.isStdout = false → quiet p.streamId = false →
      root.linesOf p = [] ∨ p.tailRecords ≤ (root.linesOf p).length := by
    intro p hp hpstdout hquiet
    have hkept := hinv.kept p hp
    rw [Kept, if_neg (by simp [hquiet])] at hkept
    have hsame : (root.filesOf p).flatMap splitBytes = root.linesOf p := by
      rw [hkept.filesOf, Root.linesOf]
    exact hsame ▸ hfull p hp hpstdout hquiet
  rw [rebuild_eq_self hinv.kept hinv.bounded hlines]
  exact ⟨fun _ _ _ _ => rfl, fun _ _ _ _ => rfl, fun _ => rfl, rfl, fun _ _ => rfl⟩

/-! ## Three rows -/

def invocationId : ℕ → String
  | 0 => "llminv_0"
  | 1 => "llminv_1"
  | _ => "llminv_2"

def rowText (n : ℕ) : Bytes := ascii ("\x7b\"invocation_id\": \"" ++ invocationId n ++ "\"\x7d")

def rowLine (n : ℕ) : Bytes := rowText n ++ [10]

/-- Python for these rows, with their newline or without. -/
def rowPython : Python Empty ℕ :=
  { samplePython with
    loads := fun line => ([0, 1, 2].find? fun n => bareLine line = rowText n).map fun n =>
      .obj [("invocation_id", .str (invocationId n))] }

/-- Nothing is found, and one row is appended. -/
def withOneRow (p : RuntimeStreamPolicy) : Root ℕ :=
  (foundRoot fun _ => none).call rowPython ⟨[p], List.nodup_singleton _⟩
    (.append noFaults p.relativePath [rowLine 0])

/-- A stream that is sealed behind every line. -/
def shortInvocations : RuntimeStreamPolicy :=
  { invocations with maxActiveBytes := 1, maxActive_pos := by decide }

/-- The rebuild puts a row that is still there into the tail once more, and forgets a row whose
segment is archived. -/
theorem rebuild_doubles_and_forgets :
    ¬SameAnswers rowPython ⟨[invocations], List.nodup_singleton _⟩ (withOneRow invocations)
        (rebuildRuntimeSemanticIndex rowPython ⟨[invocations], List.nodup_singleton _⟩
          (withOneRow invocations)).1 ∧
      ¬SameAnswers rowPython ⟨[shortInvocations], List.nodup_singleton _⟩
        (withOneRow shortInvocations)
        (rebuildRuntimeSemanticIndex rowPython ⟨[shortInvocations], List.nodup_singleton _⟩
          (withOneRow shortInvocations)).1 := by
  constructor
  · intro h
    have htail := congrArg List.length (h.tail invocations.relativePath 10)
    exact absurd htail (by decide +kernel)
  · intro h
    have hexist := h.exist "llm.invocations" "invocation_id" "llminv_0" ""
    exact absurd hexist (by decide +kernel)

/-- A stream that is sealed behind the second line, and a tail of two records. -/
def pairedInvocations : RuntimeStreamPolicy :=
  { invocations with
    maxActiveBytes := 40, maxActive_pos := by decide, tailRecords := 2, tail_pos := by decide }

/-- Segments are given back by the archiver. -/
def givenBack : Answers :=
  { noFaults with
    maintenance := { noFaults.maintenance with archival := fun _ _ => .released } }

/-- The first rows, one call a row. -/
def withRows (n : ℕ) : Root ℕ :=
  (List.range n).foldl (fun root i => root.call rowPython ⟨[pairedInvocations], List.nodup_singleton _⟩
    (.append givenBack pairedInvocations.relativePath [rowLine i])) (foundRoot fun _ => none)

theorem rowLine_orderly {n : ℕ} (hn : n < 3) :
    OrderlyAppend rowPython givenBack pairedInvocations [rowLine n] (withRows n) where
  written := rfl
  synced := rfl
  indexed := by
    refine Option.ne_none_iff_isSome.2 ?_
    interval_cases n <;> decide +kernel
  tail := .inr rfl
  whole l hl := by
    rw [List.mem_singleton.1 hl]
    interval_cases n <;> exact ⟨by decide +kernel, by decide +kernel⟩
  keyed := by
    unfold Keyed
    interval_cases n <;> decide +kernel
  last := by
    unfold Answers.Seals
    interval_cases n <;> decide +kernel
  stays _ _ := ⟨fun _ _ => .inr rfl, .inr rfl⟩

/-- Two rows in a sealed segment and one in the file are found again as they were. -/
theorem rows_keep_answers :
    SameAnswers rowPython ⟨[pairedInvocations], List.nodup_singleton _⟩ (withRows 3)
      (rebuildRuntimeSemanticIndex rowPython ⟨[pairedInvocations], List.nodup_singleton _⟩
        (withRows 3)).1 := by
  have hrun : ∀ n ≤ 3, (calls rowPython ⟨[pairedInvocations], List.nodup_singleton _⟩
      fun _ => false).Reachable (withRows n) := by
    intro n hn
    induction n with
    | zero =>
        exact .init ⟨fun _ => none, fun _ _ _ hdata => (Option.some_ne_none _ hdata.symm).elim, rfl⟩
    | succ n ih =>
        rw [withRows, List.range_succ, List.foldl_append]
        refine (ih (by omega)).step
          (a := .append givenBack pairedInvocations.relativePath [rowLine n]) ?_
        intro _ _ p hp
        obtain ⟨hmem, -⟩ := policyFor_some hp
        rw [List.mem_singleton.1 hmem]
        exact rowLine_orderly hn
  have hfull : TailsFull ⟨[pairedInvocations], List.nodup_singleton _⟩ (fun _ => false)
      (withRows 3) := by
    intro p hp _ _
    rw [List.mem_singleton.1 hp]
    exact .inr (by decide +kernel)
  exact rebuild_keeps_answers (by decide) (by simp) (hrun 3 le_rfl) hfull

end ResearchLab.RuntimeStorage
