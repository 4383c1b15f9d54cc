import Mathlib
import ResearchLab.Foundation.JsonValues
import ResearchLab.Foundation.Sorting

/-!
# The order of members

A dictionary keeps the order in which its members were written. A text with sorted keys forgets it,
and with it every digest of such a text: values are alike if they differ in nothing else.
-/
namespace ResearchLab.Foundation.Json

universe u

variable {φ : Type u}

/-- The members in the order of their keys. -/
def sortMembers (members : List (String × Json φ)) : List (String × Json φ) :=
  sortOn Prod.fst members

mutual

/-- The value with all members in the order of their keys. -/
def sorted : Json φ → Json φ
  | .arr items => .arr (sortedItems items)
  | .obj members => .obj (sortMembers (sortedValues members))
  | .null => .null
  | .bool b => .bool b
  | .int n => .int n
  | .float x => .float x
  | .str s => .str s

def sortedItems : List (Json φ) → List (Json φ)
  | [] => []
  | v :: vs => sorted v :: sortedItems vs

def sortedValues : List (String × Json φ) → List (String × Json φ)
  | [] => []
  | (k, v) :: ms => (k, sorted v) :: sortedValues ms

end

attribute [local simp] sorted sortedItems sortedValues

/-- The values differ in the order of members only. -/
def Alike (v w : Json φ) : Prop := v.sorted = w.sorted

/-- If the values differ in the order of members only, they are the same. -/
def SameOrder (v w : Json φ) : Prop := Alike v w → v = w

theorem sortedItems_eq_map (items : List (Json φ)) : sortedItems items = items.map sorted := by
  induction items with
  | nil => rfl
  | cons v vs ih => simp [ih]

theorem sortedValues_eq_map (members : List (String × Json φ)) :
    sortedValues members = members.map fun m => (m.1, m.2.sorted) := by
  induction members with
  | nil => rfl
  | cons m ms ih => simp [ih]

/-! ## What a reader sees of alike values -/

theorem find?_orderedInsert (m : String × Json φ) (members : List (String × Json φ)) (key : String) :
    (members.orderedInsert (fun a b => a.1 ≤ b.1) m).find? (fun m => m.1 = key) =
      (m :: members).find? fun m => m.1 = key := by
  induction members with
  | nil => rfl
  | cons other members ih =>
    rw [List.orderedInsert]
    by_cases hle : m.1 ≤ other.1
    · rw [if_pos hle]
    · rw [if_neg hle, List.find?_cons, ih]
      by_cases hkey : m.1 = key
      · have hother : other.1 ≠ key := fun h => hle (by rw [hkey, h])
        simp [hkey, hother]
      · simp [hkey, List.find?_cons]

theorem field_sortMembers (members : List (String × Json φ)) (key : String) :
    field (sortMembers members) key = field members key := by
  have hfind : (sortMembers members).find? (fun m => m.1 = key) =
      members.find? fun m => m.1 = key := by
    rw [sortMembers, sortOn]
    induction members with
    | nil => rfl
    | cons m members ih =>
      rw [List.insertionSort_cons, find?_orderedInsert, List.find?_cons, ih, List.find?_cons]
  rw [field, hfind, field]

theorem field_sortedValues (members : List (String × Json φ)) (key : String) :
    field (sortedValues members) key = (field members key).sorted := by
  rw [sortedValues_eq_map, field, field, List.find?_map]
  have hsame : ((fun m : String × Json φ => decide (m.1 = key)) ∘
      fun m : String × Json φ => (m.1, m.2.sorted)) = fun m => decide (m.1 = key) := rfl
  rw [hsame]
  cases members.find? fun m => m.1 = key with
  | none => rw [Option.map_none, Option.map_none, Option.getD_none, sorted]
  | some m => rfl

variable {v v' w w' : Json φ} {members members' : List (String × Json φ)}

theorem Alike.field (h : Alike (.obj members) (.obj members')) (key : String) :
    Alike (field members key) (field members' key) := by
  rw [Alike, sorted, sorted, obj.injEq] at h
  rw [Alike, ← field_sortedValues, ← field_sortedValues, ← field_sortMembers, h, field_sortMembers]

@[simp] theorem alike_str {a b : String} : Alike (.str a : Json φ) (.str b) ↔ a = b := by
  simp [Alike]

@[simp] theorem alike_int {a b : ℤ} : Alike (.int a : Json φ) (.int b) ↔ a = b := by
  simp [Alike]

@[simp] theorem alike_float {a b : φ} : Alike (.float a) (.float b) ↔ a = b := by
  simp [Alike]

theorem alike_arr {items items' : List (Json φ)} :
    Alike (.arr items) (.arr items') ↔ List.Forall₂ Alike items items' := by
  rw [Alike, sorted, sorted, arr.injEq, sortedItems_eq_map, sortedItems_eq_map,
    ← List.forall₂_eq_eq_eq, List.forall₂_map_left_iff, List.forall₂_map_right_iff]
  rfl

theorem alike_floats {a b : List φ} :
    Alike (.arr (a.map .float)) (.arr (b.map .float)) ↔ a = b := by
  rw [alike_arr, List.forall₂_map_left_iff, List.forall₂_map_right_iff]
  simp only [alike_float, List.forall₂_eq_eq_eq]

theorem Alike.membersOr (h : Alike v w) : Alike (.obj (membersOr v)) (.obj (membersOr w)) := by
  cases v <;> cases w <;> simp_all [Alike, Json.membersOr]

section
variable [Zero φ] [DecidableEq φ]

theorem truthy_sorted (v : Json φ) : v.sorted.truthy = v.truthy := by
  cases v with
  | arr items => cases items <;> rfl
  | obj members =>
    have hlength : (sortMembers (sortedValues members)).length = members.length := by
      rw [sortMembers, (sortOn_perm _ _).length_eq, sortedValues_eq_map, List.length_map]
    have hempty : (sortMembers (sortedValues members)).isEmpty = members.isEmpty := by
      rw [Bool.eq_iff_iff, List.isEmpty_iff_length_eq_zero, hlength,
        List.isEmpty_iff_length_eq_zero]
    rw [sorted, truthy, truthy, hempty]
  | null | bool _ | int _ | float _ | str _ => rfl

theorem Alike.truthy (h : Alike v w) : v.truthy = w.truthy := by
  rw [← truthy_sorted, h, truthy_sorted]

theorem sorted_orElse (v w : Json φ) : (v.orElse w).sorted = v.sorted.orElse w.sorted := by
  rw [orElse, orElse, truthy_sorted]
  split_ifs <;> rfl

end
end ResearchLab.Foundation.Json
