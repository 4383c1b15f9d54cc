import Mathlib
import ResearchLab.SegmentStore.Journal

/-!
# Torn writes of the segment store

A crash may leave any bytes of an intent in its file. A torn record is written again by the
recovery, but a torn header is a conflict that blocks the stream for good.
-/
namespace ResearchLab.SegmentStore

variable {host : SegmentHost} {s s' : SegmentState} {stream requestId segmentId : String}

/-! ## A crash while the header is written -/

/-- The state in which the open is complete. -/
def openedState (intent : SegmentEvent) (intended : Bytes) (identity : FileIdentity)
    (s : SegmentState) : SegmentState :=
  let s := writeHeader intent identity intended s
  { s with events := s.events ++ [terminalOf intent .opened (some identity) none] }

/-- The state after a conflict. -/
def conflictState (intent : SegmentEvent) (reason : ConflictReason) (s : SegmentState) :
    SegmentState :=
  { s with events := s.events ++ [terminalOf intent .conflict none (some reason)] }

@[simp] theorem writeHeader_file (intent : SegmentEvent) (identity : FileIdentity) (written : Bytes)
    (s : SegmentState) : (writeHeader intent identity written s).files intent.streamId
      intent.sourceName = some ⟨identity, written⟩ := by
  simp [writeHeader, SegmentState.setFile]

theorem OpenBegun.recoverGlobal {intent : SegmentEvent} {intended : Bytes}
    (h : OpenBegun host intent intended s) {t : SegmentState} (ht : t.events = s.events)
    (identity : FileIdentity) :
    recoverGlobal host identity t = recoverOpen host intent intended identity t := by
  obtain ⟨⟨view, hview, hpending⟩, htype, hbytes, hsize, hsha, -, -⟩ := h
  simp only [SegmentStore.recoverGlobal, ht, hview, hpending, hbytes, hsize, hsha, htype]
  rw [if_neg (by simp)]

/-- What recovery makes of any bytes in the new file. -/
theorem OpenBegun.recover_written {intent : SegmentEvent} {intended : Bytes}
    (h : OpenBegun host intent intended s) (identity identity' : FileIdentity) (written : Bytes) :
    SegmentStore.recoverGlobal host identity' (writeHeader intent identity written s) =
      if written = intended then (.ok (), openedState intent intended identity s)
      else (.error (.reason .preimageMismatch),
        conflictState intent .preimageMismatch (writeHeader intent identity written s)) := by
  rw [h.recoverGlobal (t := writeHeader intent identity written s) rfl, recoverOpen,
    writeHeader_file]
  obtain ⟨⟨view, hview, hpending⟩, -, -, -, -, hsize, hsha⟩ := h
  dsimp only
  split_ifs with hmismatch hsame hsame
  · simp [hsame, hsize, hsha] at hmismatch
  · rw [conflictPending, publishEvent_terminal (s := writeHeader intent identity written s) hview
      hpending rfl]
    rfl
  · rw [publishTerminal, publishEvent_terminal (s := writeHeader intent identity written s) hview
      hpending rfl, hsame]
    rfl
  · simp [hsame] at hmismatch

/-- Recovery completes an open that crashed before it created the file. -/
theorem OpenBegun.recover_missing {intent : SegmentEvent} {intended : Bytes}
    (h : OpenBegun host intent intended s) (hs : s.files intent.streamId intent.sourceName = none)
    (identity : FileIdentity) :
    SegmentStore.recoverGlobal host identity s = (.ok (), openedState intent intended identity s) := by
  rw [h.recoverGlobal (t := s) rfl, recoverOpen, hs]
  obtain ⟨⟨view, hview, hpending⟩, -⟩ := h
  dsimp only
  rw [publishTerminal, publishEvent_terminal (s := writeHeader intent identity intended s) hview
    hpending rfl]
  rfl

/-- Whatever bytes of the header a crashed open has left in its file, the next call completes the
open and goes on if and only if they are the whole header. -/
theorem torn_header_recovers_iff {intent : SegmentEvent} {intended : Bytes}
    (h : beginOpen host stream requestId segmentId s = (.ok (some intent), s'))
    (hintended : intent.intentBytes = some intended) (identity identity' : FileIdentity)
    (written : Bytes) :
    (∀ rest : SegmentState → Except SegmentError Unit × SegmentState,
      recoverThen host rest identity' (writeHeader intent identity written s') =
        rest (openedState intent intended identity s')) ↔ written = intended := by
  obtain ⟨bytes, hbegun⟩ := openBegun h
  obtain rfl : bytes = intended := Option.some.inj (hbegun.intent.2.1.symm.trans hintended)
  have hrecover := hbegun.recover_written identity identity' written
  constructor
  · intro hall
    by_contra hne
    have hdone := hall fun s => (.ok (), s)
    rw [if_neg hne] at hrecover
    rw [recoverThen, hrecover] at hdone
    cases congrArg Prod.fst hdone
  · intro heq rest
    rw [if_pos heq] at hrecover
    rw [recoverThen, hrecover]

/-! ## A crash while a record is written -/

/-- A torn tail is completed, whatever part of it was written. -/
theorem repairedTail_torn {intent : SegmentEvent} {pre tail intended : Bytes}
    (hsize : intent.preSize = some pre.length) (hsha : intent.preSha256 = some (host.sha pre))
    (hpost : intent.postSize = some (pre ++ intended).length)
    (hpostSha : intent.postSha256 = some (host.sha (pre ++ intended))) (htail : tail <+: intended) :
    repairedTail host intent intended (pre ++ tail) = some (pre ++ intended) := by
  have hlen := htail.length_le
  simp only [repairedTail, hsize, Option.getD_some, List.take_left, List.drop_left, hsha, hpost,
    hpostSha]
  rw [if_neg (by simp)]
  by_cases hnil : tail = []
  · rw [if_pos (by simp [hnil]), hnil, List.append_nil]
  have hpos : 0 < tail.length := List.length_pos_iff.2 hnil
  rw [if_neg (by simp [hnil])]
  by_cases hwhole : tail = intended
  · rw [if_pos ⟨by rw [hwhole], by rw [hwhole], hwhole⟩, hwhole]
  · have hlt : tail.length < intended.length :=
      lt_of_le_of_ne hlen fun heq => hwhole (htail.eq_of_length heq)
    rw [if_neg fun h => hwhole h.2.2, if_pos (by simp [isStrictIntendedPrefix, hpos, hlt, htail])]

/-- The recovery of an append writes the record as it was intended. -/
theorem torn_record_recovers {intent : SegmentEvent} {pre tail intended : Bytes}
    {identity : FileIdentity}
    (hfile : s.files intent.streamId intent.sourceName = some ⟨identity, pre ++ tail⟩)
    (hidentity : intent.fileIdentity = some identity) (hsize : intent.preSize = some pre.length)
    (hsha : intent.preSha256 = some (host.sha pre))
    (hpost : intent.postSize = some (pre ++ intended).length)
    (hpostSha : intent.postSha256 = some (host.sha (pre ++ intended))) (htail : tail <+: intended) :
    recoverAppend host intent intended s =
      publishTerminal host intent .appendCommitted identity
        (s.setFile intent.streamId intent.sourceName (some ⟨identity, pre ++ intended⟩)) := by
  simp only [recoverAppend, hfile, hidentity, repairedTail_torn hsize hsha hpost hpostSha htail]
  rw [if_neg (by simp), if_neg (by simp [hpost, hpostSha])]

/-! ## A store that crashes while it opens its first segment -/

def journalHost : SegmentHost where
  sha bytes := toString bytes.length
  headerBytes _ := [123, 125, 10]
  verify _ := none
  windows := false

def emptyStore : SegmentState := ⟨[], fun _ _ => none⟩

def firstIntent : SegmentEvent :=
  openIntentOf journalHost "farm.cycle" "req_1" "seg_1" {}

def begunStore : SegmentState := { emptyStore with events := [firstIntent] }

theorem begunStore_eq :
    beginOpen journalHost "farm.cycle" "req_1" "seg_1" emptyStore =
      (.ok (some firstIntent), begunStore) := rfl

theorem torn_header_recovers_iff_first :
    (∀ rest : SegmentState → Except SegmentError Unit × SegmentState,
      recoverThen journalHost rest ⟨1, 8, 1⟩ (writeHeader firstIntent ⟨1, 7, 1⟩ [123] begunStore) =
        rest (openedState firstIntent [123, 125, 10] ⟨1, 7, 1⟩ begunStore)) ↔
      ([123] : Bytes) = [123, 125, 10] :=
  torn_header_recovers_iff begunStore_eq rfl ⟨1, 7, 1⟩ ⟨1, 8, 1⟩ [123]

/-- A crash between the creation of the file and the write of its header is recovered as a conflict,
after which the stream cannot be opened any more. -/
theorem torn_header_blocks_stream :
    ∃ intent s intended, beginOpen journalHost "farm.cycle" "req_1" "seg_1" emptyStore =
        (.ok (some intent), s) ∧ intent.intentBytes = some intended ∧ [] <+: intended ∧
      recoverGlobal journalHost ⟨1, 8, 1⟩ (writeHeader intent ⟨1, 7, 1⟩ [] s) =
        (.error (.reason .preimageMismatch),
          conflictState intent .preimageMismatch (writeHeader intent ⟨1, 7, 1⟩ [] s)) ∧
      openSegment journalHost "farm.cycle" "req_1" "seg_2" ⟨1, 8, 1⟩
        (conflictState intent .preimageMismatch (writeHeader intent ⟨1, 7, 1⟩ [] s)) =
        (.error (.conflict "segment stream is blocked by terminal conflict"),
          conflictState intent .preimageMismatch (writeHeader intent ⟨1, 7, 1⟩ [] s)) :=
  ⟨firstIntent, begunStore, [123, 125, 10], begunStore_eq, rfl, List.nil_prefix, rfl, rfl⟩

end ResearchLab.SegmentStore
