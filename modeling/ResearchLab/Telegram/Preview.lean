import Mathlib
import ResearchLab.Foundation.Json
import ResearchLab.Foundation.Table

/-!
# Previews and what identifies their delivery

A delivery is a preview, a recipient and the chart bytes that were captured for it. Its keys are
computed from the rendered content and from the ids that earlier versions of the sender used.
-/
namespace ResearchLab.Telegram
open Foundation

abbrev Bytes := List UInt8

/-- A JSON object as `json.loads` gives it. -/
abbrev Item (φ : Type) := List (String × Json φ)

/-- What the sender takes from the language: `str`, `str.strip`, the text of a float, whether it
is zero, and the hashes. -/
structure Python (φ : Type) where
  str : Json φ → String
  strip : String → String
  repr : φ → List Char
  isZero : φ → Bool
  sha256 : String → String
  sha256Bytes : Bytes → String

variable {φ : Type} (py : Python φ)

def truthy : Json φ → Bool
  | .null => false
  | .bool b => b
  | .int n => n ≠ 0
  | .float x => !py.isZero x
  | .str s => s ≠ ""
  | .arr items => !items.isEmpty
  | .obj members => !members.isEmpty

namespace Item

/-- `item.get(key)`. -/
def get (item : Item φ) (key : String) : Json φ := (item.lookup key).getD .null

/-- `str(item.get(key) or "")`. -/
def text (item : Item φ) (key : String) : String :=
  match item.get key with
  | .str s => s
  | value => if truthy py value then py.str value else ""

end Item

def requiredDisclaimer : String := "Бумажный режим: это не ордер."

def maxPhotoCaptionChars : ℕ := 1024

/-- The problem of a preview that must not be sent. -/
def previewProblem (item : Item φ) : Option String :=
  match item.get "schema", item.get "paper_only", item.get "execution_allowed" with
  | .str "PaperTelegramPreview.v1", .bool true, .bool false =>
      if truthy py (item.get "problems") then some "preview_has_problems"
      else if item.text py "source_signal_id" ≠ "paper_status_digest" ∧
          py.strip (item.text py "telegram_card_id") = "" then
        some "missing_immutable_content_identity"
      else if py.strip (item.text py "text") = "" then some "missing_text"
      else if ¬ requiredDisclaimer.toList <:+: (item.text py "text").toList then
        some "missing_research_disclaimer"
      else none
  | .str "PaperTelegramPreview.v1", .bool true, _ => some "execution_allowed_not_false"
  | .str "PaperTelegramPreview.v1", _, _ => some "paper_only_not_true"
  | _, _, _ => some "bad_preview_schema"

/-! ## Keys -/

/-- One preview for one recipient, with the path and the bytes of its chart. -/
structure Attempt (φ : Type) where
  item : Item φ
  recipientId : String
  chart : Option (String × Bytes)

def cardFields : List String :=
  ["schema", "preview_id", "instruction_id", "source_signal_id", "telegram_card_id", "pair",
    "timeframe", "side", "setup_family", "text"]

/-- What is rendered: the text, the fields of the card, the path of the chart and its bytes. -/
def Attempt.content (a : Attempt φ) : List (Json φ) × Option (String × Bytes) :=
  (cardFields.map a.item.get, a.chart)

/-- `hashlib.sha256(json.dumps(payload, ...))`. -/
def payloadDigest (payload : List (String × Json φ)) : String :=
  py.sha256 (String.ofList ((Json.obj payload).dumps (Json.canonical py.repr)))

def chartPayload : Option (String × Bytes) → Json φ
  | none => .null
  | some (path, bytes) =>
      .obj [("resolved_path", .str path), ("sha256", .str (py.sha256Bytes bytes))]

def deliveryContentIdentity (a : Attempt φ) : String :=
  payloadDigest py
    (cardFields.zip (cardFields.map a.item.get) ++ [("chart", chartPayload py a.chart)])

def legacyDeliveryContentIdentityV1 (item : Item φ) : String :=
  payloadDigest py
    (cardFields.zip (cardFields.map item.get) ++ [("chart_path", item.get "chart_path")])

def recipientHash (recipientId : String) : String :=
  if recipientId = "" then "" else String.ofList ((py.sha256 recipientId).toList.take 16)

/-- The primary key of a delivery. -/
def deliveryKey (a : Attempt φ) : String :=
  let rh := recipientHash py a.recipientId
  let sourceSignalId := py.strip (a.item.text py "source_signal_id")
  let identity := deliveryContentIdentity py a
  if sourceSignalId ≠ "" ∧ sourceSignalId ≠ "paper_status_digest" then
    "signal:" ++ sourceSignalId ++ ":content-sha256:" ++ identity ++ ":" ++ rh
  else "digest:content-sha256:" ++ identity ++ ":" ++ rh

/-- The keys that earlier versions gave the delivery. -/
def legacyKeys (a : Attempt φ) : List String :=
  let rh := recipientHash py a.recipientId
  let sourceSignalId := py.strip (a.item.text py "source_signal_id")
  let previewId := py.strip (a.item.text py "preview_id")
  let telegramCardId := py.strip (a.item.text py "telegram_card_id")
  let legacy := legacyDeliveryContentIdentityV1 py a.item
  let candidates :=
    if sourceSignalId ≠ "" ∧ sourceSignalId ≠ "paper_status_digest" then
      let contentKey := if telegramCardId ≠ "" then telegramCardId else previewId
      ["signal:" ++ sourceSignalId ++ ":content-sha256:" ++ legacy ++ ":" ++ rh] ++
        (if contentKey ≠ "" then
          ["signal:" ++ sourceSignalId ++ ":content:" ++ contentKey ++ ":" ++ rh] else []) ++
        ["signal:" ++ sourceSignalId ++ ":" ++ rh]
    else
      let digestKey := if previewId ≠ "" then previewId
        else if sourceSignalId ≠ "" then sourceSignalId else telegramCardId
      ["digest:content-sha256:" ++ legacy ++ ":" ++ rh] ++
        (if digestKey ≠ "" then ["digest:" ++ digestKey ++ ":" ++ rh] else [])
  candidates ++ ([telegramCardId, previewId].filter (· ≠ "")).map fun id => id ++ ":" ++ rh

/-- The primary key and then, each once, the keys of earlier versions. -/
def deliveryKeys (a : Attempt φ) : List String :=
  (deliveryKey py a :: legacyKeys py a).foldl
    (fun out key => if key = "" ∨ key ∈ out then out else out ++ [key]) []

/-- The same content for the same recipient. -/
def SamePair (a b : Attempt φ) : Prop := a.recipientId = b.recipientId ∧ a.content = b.content

theorem deliveryKey_ne_empty (a : Attempt φ) : deliveryKey py a ≠ "" := by
  intro h
  have hlist := congrArg String.toList h
  simp only [deliveryKey] at hlist
  split at hlist <;> simp [String.toList_append] at hlist

private theorem mem_foldl_keys {keys out : List String} {k : String} (h : k ∈ out) :
    k ∈ keys.foldl (fun out key => if key = "" ∨ key ∈ out then out else out ++ [key]) out := by
  induction keys generalizing out with
  | nil => exact h
  | cons key keys ih =>
      refine ih ?_
      dsimp only
      split
      · exact h
      · exact List.mem_append_left _ h

theorem deliveryKey_mem (a : Attempt φ) : deliveryKey py a ∈ deliveryKeys py a := by
  rw [deliveryKeys, List.foldl_cons]
  refine mem_foldl_keys ?_
  rw [if_neg (by simp [deliveryKey_ne_empty])]
  exact List.mem_append_right _ (List.mem_singleton_self _)

/-- The primary key is a function of the recipient and of the rendered content. -/
theorem deliveryKey_congr {a b : Attempt φ} (h : SamePair a b) :
    deliveryKey py a = deliveryKey py b := by
  obtain ⟨hrecipient, hcontent⟩ := h
  have hfields : cardFields.map a.item.get = cardFields.map b.item.get :=
    congrArg Prod.fst hcontent
  have hchart : a.chart = b.chart := congrArg Prod.snd hcontent
  have hmem : "source_signal_id" ∈ cardFields := by decide
  have hsignal : a.item.text py "source_signal_id" = b.item.text py "source_signal_id" := by
    simp only [Item.text, List.map_inj_left.1 hfields _ hmem]
  simp only [deliveryKey, deliveryContentIdentity, hrecipient, hsignal, hfields, hchart]

end ResearchLab.Telegram
