import Mathlib.Data.List.Sort
import Mathlib.Data.Int.Basic

/-!
# JSON values and their text

The values that `json.dumps` writes and its text of them, under the separators and switches of
a call. The type of the floats is a parameter, and with it the text that `repr` gives them.
-/
namespace ResearchLab.Foundation

universe u

inductive Json (φ : Type u)
  | null
  | bool (b : Bool)
  | int (n : ℤ)
  | float (x : φ)
  | str (s : String)
  | arr (items : List (Json φ))
  | obj (members : List (String × Json φ))

namespace Json

variable {φ : Type u}

/-- The arguments of `json.dumps`. -/
structure Format (φ : Type u) where
  itemSep : List Char
  keySep : List Char
  ensureAscii : Bool
  sortKeys : Bool
  repr : φ → List Char

/-- `json.dumps(value)` without further arguments. -/
def plain (repr : φ → List Char) : Format φ := ⟨[',', ' '], [':', ' '], true, false, repr⟩

/-- Sorted keys, no blanks and no escapes beyond the necessary ones. -/
def canonical (repr : φ → List Char) : Format φ := ⟨[','], [':'], false, true, repr⟩

def hexDigit (n : ℕ) : Char := if n < 10 then Char.ofNat (48 + n) else Char.ofNat (87 + n)

/-- A UTF-16 unit as `\uXXXX`. -/
def hexEscape (n : ℕ) : List Char :=
  ['\\', 'u', hexDigit (n / 4096 % 16), hexDigit (n / 256 % 16), hexDigit (n / 16 % 16),
    hexDigit (n % 16)]

/-- A character outside printable ASCII, by one UTF-16 unit or by two. -/
def asciiEscape (c : Char) : List Char :=
  if c.toNat < 65536 then hexEscape c.toNat
  else hexEscape (55296 + (c.toNat - 65536) / 1024) ++
    hexEscape (56320 + (c.toNat - 65536) % 1024)

def escapeChar (ensureAscii : Bool) (c : Char) : List Char :=
  if c = '"' then ['\\', '"']
  else if c = '\\' then ['\\', '\\']
  else if c = '\n' then ['\\', 'n']
  else if c = '\r' then ['\\', 'r']
  else if c = '\t' then ['\\', 't']
  else if c.toNat = 12 then ['\\', 'f']
  else if c.toNat = 8 then ['\\', 'b']
  else if c.toNat < 32 then hexEscape c.toNat
  else if ensureAscii ∧ 126 < c.toNat then asciiEscape c
  else [c]

def dumpsString (ensureAscii : Bool) (s : String) : List Char :=
  '"' :: s.toList.flatMap (escapeChar ensureAscii) ++ ['"']

def dumpsInt (n : ℤ) : List Char := (toString n).toList

/-- The members as `json.dumps` orders them. -/
def memberOrder (fmt : Format φ) (members : List (String × List Char)) :
    List (String × List Char) :=
  if fmt.sortKeys then members.mergeSort (fun a b => decide (a.1 ≤ b.1)) else members

def dumpsMember (fmt : Format φ) (member : String × List Char) : List Char :=
  dumpsString fmt.ensureAscii member.1 ++ fmt.keySep ++ member.2

mutual

def dumps (fmt : Format φ) : Json φ → List Char
  | .null => "null".toList
  | .bool true => "true".toList
  | .bool false => "false".toList
  | .int n => dumpsInt n
  | .float x => fmt.repr x
  | .str s => dumpsString fmt.ensureAscii s
  | .arr items => '[' :: fmt.itemSep.intercalate (dumpsItems fmt items) ++ [']']
  | .obj members =>
      '\x7b' :: fmt.itemSep.intercalate
        ((memberOrder fmt (dumpsMembers fmt members)).map (dumpsMember fmt)) ++ ['\x7d']

def dumpsItems (fmt : Format φ) : List (Json φ) → List (List Char)
  | [] => []
  | v :: vs => dumps fmt v :: dumpsItems fmt vs

def dumpsMembers (fmt : Format φ) : List (String × Json φ) → List (String × List Char)
  | [] => []
  | (k, v) :: ms => (k, dumps fmt v) :: dumpsMembers fmt ms

end

/-- A text or `None`. -/
def ofOption : Option String → Json φ
  | none => .null
  | some s => .str s

end Json
end ResearchLab.Foundation
