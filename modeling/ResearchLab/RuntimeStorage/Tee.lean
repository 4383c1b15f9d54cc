import Mathlib
import ResearchLab.Foundation.Lines
import ResearchLab.RuntimeStorage.Rotation

/-!
# The tee of standard output

What a process prints is also appended, line by line, to a runtime stream. A write appends the
lines that it completes, and a flush appends the rest with a newline behind it.
-/
namespace ResearchLab.RuntimeStorage
open Foundation

/-- A character of `str`, surrogates included. -/
abbrev CodePoint := Fin 0x110000

abbrev Text := List CodePoint

def lineFeed : CodePoint := 0x0a

def carriageReturn : CodePoint := 0x0d

/-- The characters that `str.splitlines` breaks a line at. -/
def lineBreaks : List CodePoint :=
  [lineFeed, carriageReturn, 0x0b, 0x0c, 0x1c, 0x1d, 0x1e, 0x85, 0x2028, 0x2029]

def isLineBreak (c : CodePoint) : Bool := c ∈ lineBreaks

/-- What `endswith(("\n", "\r"))` asks of the last character. -/
def isNewline (c : CodePoint) : Bool := c = lineFeed ∨ c = carriageReturn

/-- The two characters that are one break. -/
def isCrLf (c d : CodePoint) : Bool := c = carriageReturn ∧ d = lineFeed

def continuationByte (n : ℕ) : UInt8 := .ofNat (0x80 + n % 0x40)

/-- UTF-8 of a character; a surrogate has none and is replaced. -/
def encodeCodePoint (c : CodePoint) : Bytes :=
  if c.val < 0x80 then [.ofNat c.val]
  else if c.val < 0x800 then [.ofNat (0xc0 + c.val / 0x40), continuationByte c.val]
  else if 0xd800 ≤ c.val ∧ c.val < 0xe000 then [0x3f]
  else if c.val < 0x10000 then
    [.ofNat (0xe0 + c.val / 0x1000), continuationByte (c.val / 0x40), continuationByte c.val]
  else
    [.ofNat (0xf0 + c.val / 0x40000), continuationByte (c.val / 0x1000),
      continuationByte (c.val / 0x40), continuationByte c.val]

/-- `encode("utf-8", errors="replace")`. -/
def encode (text : Text) : Bytes := text.flatMap encodeCodePoint

/-- `_RuntimeTee`, with the lines that it has appended to its stream. -/
structure Tee where
  pending : Text
  appended : List Bytes
  deriving DecidableEq

namespace Tee

def new : Tee := ⟨[], []⟩

def write (t : Tee) (value : Text) : Tee where
  pending := restOfLines isLineBreak isNewline isCrLf (t.pending ++ value)
  appended := t.appended ++
    (completeLines isLineBreak isNewline isCrLf (t.pending ++ value)).map encode

def flush (t : Tee) : Tee :=
  if t.pending = [] then t
  else { pending := [], appended := t.appended ++ [encode t.pending ++ [0x0a]] }

def writeAll (writes : List Text) : Tee := writes.foldl write new

/-- The stream, byte by byte. -/
def stream (t : Tee) : Bytes := t.appended.flatten

end Tee

/-! ## The stream of a run of writes -/

theorem encode_append (s t : Text) : encode (s ++ t) = encode s ++ encode t :=
  List.flatMap_append

theorem flatten_map_encode (lines : List Text) :
    (lines.map encode).flatten = encode lines.flatten := by
  induction lines with
  | nil => rfl
  | cons l ls ih => rw [List.map_cons, List.flatten_cons, ih, List.flatten_cons, encode_append]

theorem encodeCodePoint_ne_nil (c : CodePoint) : encodeCodePoint c ≠ [] := by
  unfold encodeCodePoint
  split_ifs <;> exact List.cons_ne_nil _ _

theorem encode_eq_nil {t : Text} : encode t = [] ↔ t = [] := by
  cases t with
  | nil => simp [encode]
  | cons c cs => simp [encode, encodeCodePoint_ne_nil]

theorem isLineBreak_of_isNewline (c : CodePoint) (h : isNewline c = true) :
    isLineBreak c = true := by
  simp only [isNewline, decide_eq_true_eq] at h
  obtain rfl | rfl := h <;> decide

theorem isNewline_of_isCrLf (c d : CodePoint) (h : isCrLf c d = true) :
    isNewline c = true ∧ isNewline d = true := by
  simp only [isCrLf, decide_eq_true_eq] at h
  obtain ⟨rfl, rfl⟩ := h
  decide

/-- The text that is appended without a flush. -/
abbrev settledText (text : Text) : Text := settled isLineBreak isNewline text

/-- The text through its last newline. -/
abbrev throughLastNewline (text : Text) : Text := throughLast isNewline text

namespace Tee

/-- The stream holds the settled text, and what waits is the rest. -/
structure Holds (t : Tee) (text : Text) : Prop where
  stream : t.stream = encode (settledText text)
  pending : settledText text ++ t.pending = text

theorem holds_new : new.Holds [] := ⟨rfl, rfl⟩

theorem Holds.write {t : Tee} {text : Text} (h : t.Holds text) (value : Text) :
    (t.write value).Holds (text ++ value) := by
  have hsettled : settledText (text ++ value) =
      settledText text ++ settledText (t.pending ++ value) := settled_append_rest h.pending
  have hcomplete := flatten_completeLines isLineBreak_of_isNewline isNewline_of_isCrLf
    (t.pending ++ value)
  have hrest := restOfLines_eq isLineBreak_of_isNewline isNewline_of_isCrLf (t.pending ++ value)
  constructor
  · calc (t.write value).stream
        = t.stream ++ encode (settledText (t.pending ++ value)) := by
          rw [Tee.stream, Tee.write, List.flatten_append, flatten_map_encode, hcomplete]
          rfl
      _ = encode (settledText (text ++ value)) := by
          rw [h.stream, hsettled, encode_append]
  · calc settledText (text ++ value) ++ (t.write value).pending
        = settledText text ++ (settledText (t.pending ++ value) ++ (t.write value).pending) := by
          rw [hsettled, List.append_assoc]
      _ = settledText text ++ (t.pending ++ value) := congrArg _ hrest
      _ = text ++ value := by rw [← List.append_assoc, h.pending]

theorem holds_writeAll (writes : List Text) : (writeAll writes).Holds writes.flatten := by
  induction writes using List.reverseRecOn with
  | nil => exact holds_new
  | append_singleton writes value ih =>
      have h := ih.write value
      rwa [writeAll, List.foldl_append, List.flatten_append, List.flatten_singleton]

/-- The whole text is in the stream behind a flush, with a newline where some of it waited. -/
theorem Holds.stream_flush {t : Tee} {text : Text} (h : t.Holds text) :
    t.flush.stream = encode text ++ if settledText text = text then [] else [0x0a] := by
  have hpending : t.pending = [] ↔ settledText text = text := by
    constructor
    · intro hnil
      simpa [hnil] using h.pending
    · intro hall
      have happend := h.pending
      rw [hall] at happend
      exact List.append_right_eq_self.1 happend
  unfold flush
  by_cases hnil : t.pending = []
  · rw [if_pos hnil, if_pos (hpending.1 hnil), h.stream, hpending.1 hnil, List.append_nil]
  · rw [if_neg hnil, if_neg fun hall => hnil (hpending.2 hall)]
    calc (t.appended ++ [encode t.pending ++ [0x0a]]).flatten
        = t.stream ++ encode t.pending ++ [0x0a] := by
          rw [List.flatten_append, List.flatten_singleton, List.append_assoc]
          rfl
      _ = encode text ++ [0x0a] := by
          rw [h.stream, ← encode_append, h.pending]

/-- How a text falls into writes decides neither what is appended nor what waits. -/
theorem writeAll_stream_eq {writes writes' : List Text} (h : writes.flatten = writes'.flatten) :
    (writeAll writes).stream = (writeAll writes').stream ∧
      (writeAll writes).flush.stream = (writeAll writes').flush.stream := by
  constructor
  · rw [(holds_writeAll writes).stream, (holds_writeAll writes').stream, h]
  · rw [(holds_writeAll writes).stream_flush, (holds_writeAll writes').stream_flush, h]

/-! ## Which texts pass through unchanged -/

/-- What the tee should do: behind every write all text through the last newline is appended, and
behind the flush the text itself, closed by a newline where it does not end in one. -/
def Transparent (writes : List Text) : Prop :=
  (∀ written, written <+: writes →
    encode (throughLastNewline written.flatten) <+: (writeAll written).stream) ∧
  (writeAll writes).flush.stream = encode writes.flatten ++
    if writes.flatten = [] ∨ endsIn isNewline writes.flatten = true then [] else [0x0a]

/-- No line break of another kind stands in front of a newline. -/
def NewlinesOnly (text : Text) : Prop := Clean isLineBreak isNewline text

instance decidableNewlinesOnly (text : Text) : Decidable (NewlinesOnly text) :=
  inferInstanceAs (Decidable (text.Pairwise _))

theorem NewlinesOnly.of_prefix {s t : Text} (h : NewlinesOnly t) (hs : s <+: t) : NewlinesOnly s :=
  List.Pairwise.sublist hs.sublist h

theorem NewlinesOnly.settled {text : Text} (h : NewlinesOnly text) :
    settledText text = throughLastNewline text := settled_eq_throughLast.2 h

/-- Bytes are never fewer than characters say, so that a longer text is no prefix. -/
theorem eq_of_prefix_encode {s t : Text} (h : s <+: t) (hencode : encode t <+: encode s) :
    s = t := by
  obtain ⟨rest, rfl⟩ := h
  have hlength := hencode.length_le
  rw [encode_append, List.length_append] at hlength
  have hrest : rest = [] := encode_eq_nil.1 (List.length_eq_zero_iff.1 (by omega))
  rw [hrest, List.append_nil]

theorem settledText_prefix_throughLast (text : Text) :
    settledText text <+: throughLastNewline text := by
  have hsettled : settledText text <+: text := settled_prefix text
  obtain ⟨rest, hrest⟩ := hsettled
  refine ⟨throughLastNewline rest, ?_⟩
  rw [← throughLast_append endsIn_settled, hrest]

/-- The tee is transparent for just those texts in which no vertical tab, form feed, separator or
other line break stands in front of a newline. -/
theorem transparent_iff (writes : List Text) :
    Transparent writes ↔ NewlinesOnly writes.flatten := by
  constructor
  · rintro ⟨hevery, -⟩
    have hall := hevery writes List.prefix_rfl
    rw [(holds_writeAll writes).stream] at hall
    exact settled_eq_throughLast.1
      (eq_of_prefix_encode (settledText_prefix_throughLast _) hall)
  · intro hclean
    constructor
    · intro written hwritten
      have hprefix : written.flatten <+: writes.flatten := by
        obtain ⟨rest, rfl⟩ := hwritten
        exact ⟨rest.flatten, by rw [List.flatten_append]⟩
      rw [(holds_writeAll written).stream, (hclean.of_prefix hprefix).settled]
    · rw [(holds_writeAll writes).stream_flush, hclean.settled]
      exact congrArg _ (if_congr throughLast_eq_self rfl rfl)

/-- A vertical tab holds its line back, and the flush closes the line once more. -/
theorem vertical_tab_holds_the_line_back :
    ¬ Transparent [[0x61, 0x0b, 0x62, 0x0a]] ∧
      (writeAll [[0x61, 0x0b, 0x62, 0x0a]]).stream = [] ∧
      (writeAll [[0x61, 0x0b, 0x62, 0x0a]]).flush.stream = [0x61, 0x0b, 0x62, 0x0a, 0x0a] := by
  refine ⟨fun h => ?_, by decide +kernel, by decide +kernel⟩
  exact absurd (h.1 [[0x61, 0x0b, 0x62, 0x0a]] List.prefix_rfl) (by decide +kernel)

end Tee
end ResearchLab.RuntimeStorage
