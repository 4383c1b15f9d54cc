import Mathlib
import ResearchLab.Foundation.JsonLoads

/-!
# Reading decoded JSON

What Python does with a decoded value: its truth, `or`, `str`, `list`, and `.get` of a
dictionary. A dictionary is its list of members; two equal dictionaries list them alike.
-/
namespace ResearchLab.Foundation.Json

universe u

/-! ## Equality -/

section Equality

variable {φ : Type u} [DecidableEq φ]

mutual

def same : Json φ → Json φ → Bool
  | .null, .null => true
  | .bool a, .bool b => decide (a = b)
  | .int a, .int b => decide (a = b)
  | .float a, .float b => decide (a = b)
  | .str a, .str b => decide (a = b)
  | .arr a, .arr b => sameItems a b
  | .obj a, .obj b => sameMembers a b
  | _, _ => false

def sameItems : List (Json φ) → List (Json φ) → Bool
  | [], [] => true
  | a :: as, b :: bs => same a b && sameItems as bs
  | _, _ => false

def sameMembers : List (String × Json φ) → List (String × Json φ) → Bool
  | [], [] => true
  | (k, a) :: as, (l, b) :: bs => decide (k = l) && same a b && sameMembers as bs
  | _, _ => false

end

mutual

theorem same_iff : ∀ a b : Json φ, same a b = true ↔ a = b
  | .null, b => by cases b <;> simp [same]
  | .bool _, b => by cases b <;> simp [same]
  | .int _, b => by cases b <;> simp [same]
  | .float _, b => by cases b <;> simp [same]
  | .str _, b => by cases b <;> simp [same]
  | .arr as, b => by cases b <;> simp [same, sameItems_iff as]
  | .obj as, b => by cases b <;> simp [same, sameMembers_iff as]

theorem sameItems_iff : ∀ as bs : List (Json φ), sameItems as bs = true ↔ as = bs
  | [], bs => by cases bs <;> simp [sameItems]
  | a :: as, bs => by cases bs <;> simp [sameItems, same_iff a, sameItems_iff as]

theorem sameMembers_iff : ∀ as bs : List (String × Json φ), sameMembers as bs = true ↔ as = bs
  | [], bs => by cases bs <;> simp [sameMembers]
  | (k, a) :: as, bs => by
      cases bs <;> simp [sameMembers, same_iff a, sameMembers_iff as, Prod.ext_iff, and_assoc]

end

instance instDecidableEqJson : DecidableEq (Json φ) := fun a b => decidable_of_iff _ (same_iff a b)

end Equality

variable {φ : Type u} [Zero φ] [DecidableEq φ]

/-- `bool(value)`. -/
def truthy : Json φ → Bool
  | .null => false
  | .bool b => b
  | .int n => decide (n ≠ 0)
  | .float x => decide (x ≠ 0)
  | .str s => decide (s ≠ "")
  | .arr items => !items.isEmpty
  | .obj members => !members.isEmpty

/-- `value or default`. -/
def orElse (v default : Json φ) : Json φ := if v.truthy then v else default

/-- `str(value)`; numbers with a fraction, lists and dictionaries by a parameter. -/
def pyStr (repr : Json φ → String) : Json φ → String
  | .null => "None"
  | .bool true => "True"
  | .bool false => "False"
  | .int n => toString n
  | .str s => s
  | v => repr v

/-- `str(value or "")`. -/
def textOr (repr : Json φ → String) (v : Json φ) : String :=
  if v.truthy then pyStr repr v else ""

/-- `value is True`. -/
def isTrue : Json φ → Bool
  | .bool b => b
  | _ => false

/-- `value is False`. -/
def isFalse : Json φ → Bool
  | .bool b => !b
  | _ => false

/-- `list(value)`. -/
def elements : Json φ → Except String (List (Json φ))
  | .arr items => .ok items
  | .obj members => .ok (members.map fun m => .str m.1)
  | .str s => .ok (s.toList.map fun c => .str (String.singleton c))
  | _ => .error "TypeError"

/-- The members of a dictionary, and none for another value. -/
def membersOr : Json φ → List (String × Json φ)
  | .obj members => members
  | _ => []

/-- `dict(value or {})`. -/
def toDict (v : Json φ) : Except String (List (String × Json φ)) :=
  match v with
  | .obj members => .ok members
  | v => if v.truthy then .error "TypeError" else .ok []

/-- `members.get(key)`. -/
def field (members : List (String × Json φ)) (key : String) : Json φ :=
  ((members.find? fun m => m.1 = key).map Prod.snd).getD .null

end ResearchLab.Foundation.Json
