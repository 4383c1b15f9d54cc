import Mathlib
import ResearchLab.Foundation.Json

/-!
# Reading JSON text

`json.loads`, and that it gives back what `json.dumps` wrote of values without numbers. The
fuel of a parser is a bound of the text it may read.
-/
namespace ResearchLab.Foundation

universe u

namespace Json

variable {φ : Type u}

def isBlank (c : Char) : Bool := c = ' ' || c = '\t' || c = '\n' || c = '\r'

def skipBlanks : List Char → List Char := List.dropWhile isBlank

/-! ## Strings -/

def hexVal (c : Char) : Option ℕ :=
  if 48 ≤ c.toNat ∧ c.toNat ≤ 57 then some (c.toNat - 48)
  else if 97 ≤ c.toNat ∧ c.toNat ≤ 102 then some (c.toNat - 87)
  else if 65 ≤ c.toNat ∧ c.toNat ≤ 70 then some (c.toNat - 55)
  else none

/-- The UTF-16 unit of four hexadecimal digits. -/
def hexUnit : List Char → Option (ℕ × List Char)
  | a :: b :: c :: d :: rest =>
      match hexVal a, hexVal b, hexVal c, hexVal d with
      | some a, some b, some c, some d => some (((a * 16 + b) * 16 + c) * 16 + d, rest)
      | _, _, _, _ => none
  | _ => none

def isHigh (n : ℕ) : Bool := decide (55296 ≤ n ∧ n < 56320)

def isLow (n : ℕ) : Bool := decide (56320 ≤ n ∧ n < 57344)

/-- A surrogate without its partner is no character. -/
def ofUnit (n : ℕ) : Char :=
  if isHigh n || isLow n then Char.ofNat 65533 else Char.ofNat n

/-- What follows the first unit `hi` of an escape. -/
def pairUp (hi : ℕ) (rest : List Char) : Option (Char × List Char) :=
  match rest with
  | '\\' :: 'u' :: after =>
      match hexUnit after with
      | some (lo, after) =>
          if isLow lo then
            some (Char.ofNat (65536 + (hi - 55296) * 1024 + (lo - 56320)), after)
          else some (ofUnit hi, rest)
      | none => none
  | _ => some (ofUnit hi, rest)

/-- What follows a backslash. -/
def unescape : List Char → Option (Char × List Char)
  | '"' :: rest => some ('"', rest)
  | '\\' :: rest => some ('\\', rest)
  | '/' :: rest => some ('/', rest)
  | 'b' :: rest => some (Char.ofNat 8, rest)
  | 'f' :: rest => some (Char.ofNat 12, rest)
  | 'n' :: rest => some ('\n', rest)
  | 'r' :: rest => some ('\r', rest)
  | 't' :: rest => some ('\t', rest)
  | 'u' :: rest =>
      match hexUnit rest with
      | some (n, rest) => if isHigh n then pairUp n rest else some (ofUnit n, rest)
      | none => none
  | _ => none

/-- A string behind its opening quote. -/
def stringBody : ℕ → List Char → Option (List Char × List Char)
  | 0, _ => none
  | _ + 1, [] => none
  | n + 1, c :: rest =>
      if c = '"' then some ([], rest)
      else if c = '\\' then
        match unescape rest with
        | some (c, rest) => (stringBody n rest).map fun p => (c :: p.1, p.2)
        | none => none
      else if c.toNat < 32 then none
      else (stringBody n rest).map fun p => (c :: p.1, p.2)

/-! ## Numbers -/

def isDigit (c : Char) : Bool := decide (48 ≤ c.toNat ∧ c.toNat ≤ 57)

def digitsVal (ds : List Char) : ℕ := ds.foldl (fun n c => n * 10 + (c.toNat - 48)) 0

/-- `0` or digits that start with another one. -/
def intPart : List Char → Option (List Char × List Char)
  | '0' :: rest => some (['0'], rest)
  | cs => if (cs.takeWhile isDigit).isEmpty then none else some (cs.span isDigit)

/-- A mark followed by at least one digit, or nothing. -/
def optionalDigits (mark rest : List Char) : List Char × List Char :=
  if (rest.takeWhile isDigit).isEmpty then ([], mark ++ rest)
  else (mark ++ rest.takeWhile isDigit, rest.dropWhile isDigit)

def fracPart : List Char → List Char × List Char
  | '.' :: rest => optionalDigits ['.'] rest
  | rest => ([], rest)

def expPart : List Char → List Char × List Char
  | c :: '-' :: rest => if c = 'e' ∨ c = 'E' then optionalDigits [c, '-'] rest else ([], c :: '-' :: rest)
  | c :: '+' :: rest => if c = 'e' ∨ c = 'E' then optionalDigits [c, '+'] rest else ([], c :: '+' :: rest)
  | c :: rest => if c = 'e' ∨ c = 'E' then optionalDigits [c] rest else ([], c :: rest)
  | [] => ([], [])

/-- `float` reads a text with a fraction or an exponent, or one of the three constants. -/
def unsigned (float : List Char → φ) (sign : List Char) (cs : List Char) :
    Option (Json φ × List Char) :=
  match intPart cs with
  | none => none
  | some (ds, rest) =>
      let frac := fracPart rest
      let exp := expPart frac.2
      if frac.1 = [] ∧ exp.1 = [] then
        some (.int (if sign = [] then digitsVal ds else -(digitsVal ds : ℤ)), rest)
      else some (.float (float (sign ++ ds ++ frac.1 ++ exp.1)), exp.2)

/-- The text behind a word it starts with. -/
def behind? (word cs : List Char) : Option (List Char) :=
  if word.isPrefixOf cs then some (cs.drop word.length) else none

def constants (float : List Char → φ) : List (List Char × Json φ) := [
  ("null".toList, .null), ("true".toList, .bool true), ("false".toList, .bool false),
  ("NaN".toList, .float (float "NaN".toList)),
  ("Infinity".toList, .float (float "Infinity".toList)),
  ("-Infinity".toList, .float (float "-Infinity".toList))]

def scalar (float : List Char → φ) (cs : List Char) : Option (Json φ × List Char) :=
  match (constants float).findSome? fun w => (behind? w.1 cs).map fun rest => (w.2, rest) with
  | some p => some p
  | none =>
      match cs with
      | '-' :: rest => unsigned float ['-'] rest
      | _ => unsigned float [] cs

/-! ## Values -/

/-- `dict[key] = value`. -/
def setKey (key : String) (v : Json φ) : List (String × Json φ) → List (String × Json φ)
  | [] => [(key, v)]
  | (k, w) :: rest => if k = key then (k, v) :: rest else (k, w) :: setKey key v rest

/-- `dict(pairs)`: a later pair replaces the value of an earlier one. -/
def dictOf (pairs : List (String × Json φ)) : List (String × Json φ) :=
  pairs.foldl (fun d p => setKey p.1 p.2 d) []

mutual

def value (float : List Char → φ) : ℕ → List Char → Option (Json φ × List Char)
  | 0, _ => none
  | n + 1, cs =>
      match cs with
      | '"' :: rest => (stringBody n rest).map fun p => (.str (String.ofList p.1), p.2)
      | '[' :: rest =>
          match skipBlanks rest with
          | ']' :: rest => some (.arr [], rest)
          | rest => (items float n rest).map fun p => (.arr p.1, p.2)
      | '\x7b' :: rest =>
          match skipBlanks rest with
          | '\x7d' :: rest => some (.obj [], rest)
          | rest => (members float n rest).map fun p => (.obj (dictOf p.1), p.2)
      | _ => scalar float cs

def items (float : List Char → φ) : ℕ → List Char → Option (List (Json φ) × List Char)
  | 0, _ => none
  | n + 1, cs =>
      match value float n cs with
      | none => none
      | some (v, rest) =>
          match skipBlanks rest with
          | ']' :: rest => some ([v], rest)
          | ',' :: rest => (items float n (skipBlanks rest)).map fun p => (v :: p.1, p.2)
          | _ => none

def members (float : List Char → φ) :
    ℕ → List Char → Option (List (String × Json φ) × List Char)
  | 0, _ => none
  | n + 1, cs =>
      match cs with
      | '"' :: rest =>
          match stringBody n rest with
          | none => none
          | some (key, rest) =>
              match skipBlanks rest with
              | ':' :: rest =>
                  match value float n (skipBlanks rest) with
                  | none => none
                  | some (v, rest) =>
                      match skipBlanks rest with
                      | '\x7d' :: rest => some ([(String.ofList key, v)], rest)
                      | ',' :: rest =>
                          (members float n (skipBlanks rest)).map fun p =>
                            ((String.ofList key, v) :: p.1, p.2)
                      | _ => none
              | _ => none
      | _ => none

end

/-- `json.loads`; `none` where it raises. -/
def loads (float : List Char → φ) (text : List Char) : Option (Json φ) :=
  match value float (text.length + 1) (skipBlanks text) with
  | some (v, rest) => if skipBlanks rest = [] then some v else none
  | none => none

/-! ## Reading back what was written -/

theorem hexVal_hexDigit {n : ℕ} (h : n < 16) : hexVal (hexDigit n) = some n := by
  interval_cases n <;> decide

theorem hexUnit_hexDigits {n : ℕ} (h : n < 65536) (rest : List Char) :
    hexUnit (hexDigit (n / 4096 % 16) :: hexDigit (n / 256 % 16) :: hexDigit (n / 16 % 16) ::
      hexDigit (n % 16) :: rest) = some (n, rest) := by
  have hn : ((n / 4096 % 16 * 16 + n / 256 % 16) * 16 + n / 16 % 16) * 16 + n % 16 = n := by omega
  simp only [hexUnit, hexVal_hexDigit (Nat.mod_lt _ (show 0 < 16 by omega)), hn]

/-- A character is not one half of a surrogate pair. -/
theorem not_surrogate (c : Char) : isHigh c.toNat = false ∧ isLow c.toNat = false := by
  have h : c.toNat < 55296 ∨ 57343 < c.toNat ∧ c.toNat < 1114112 := c.valid
  simp only [isHigh, isLow, decide_eq_false_iff_not]
  omega

theorem unescape_hexEscape {c : Char} (h : c.toNat < 65536) (rest : List Char) :
    unescape ((hexEscape c.toNat).tail ++ rest) = some (c, rest) := by
  obtain ⟨hhigh, hlow⟩ := not_surrogate c
  simp only [hexEscape, List.tail_cons, List.cons_append, List.nil_append, unescape,
    hexUnit_hexDigits h, hhigh, Bool.false_eq_true, if_false]
  simp [ofUnit, hhigh, hlow, Char.ofNat_toNat]

theorem toNat_lt (c : Char) : c.toNat < 1114112 := by
  have h : c.toNat < 55296 ∨ 57343 < c.toNat ∧ c.toNat < 1114112 := c.valid
  omega

/-- The two halves of a surrogate pair give the number they were made of. -/
theorem unescape_pair (hi lo : ℕ) {n : ℕ} (hhi : hi < 1024) (hlo : lo < 1024)
    (hn : n = 65536 + hi * 1024 + lo) (rest : List Char) :
    unescape ((hexEscape (55296 + hi)).tail ++ hexEscape (56320 + lo) ++ rest) =
      some (Char.ofNat n, rest) := by
  have hhigh : isHigh (55296 + hi) = true := by
    simp only [isHigh, decide_eq_true_eq]
    omega
  have hlow : isLow (56320 + lo) = true := by
    simp only [isLow, decide_eq_true_eq]
    omega
  have hsum : 65536 + (55296 + hi - 55296) * 1024 + (56320 + lo - 56320) = n := by omega
  have hpair : pairUp (55296 + hi) (hexEscape (56320 + lo) ++ rest) =
      some (Char.ofNat n, rest) := by
    simp only [hexEscape, List.cons_append, List.nil_append, pairUp,
      hexUnit_hexDigits (show 56320 + lo < 65536 by omega), hlow, if_true, hsum]
  have hunit : unescape ((hexEscape (55296 + hi)).tail ++ (hexEscape (56320 + lo) ++ rest)) =
      pairUp (55296 + hi) (hexEscape (56320 + lo) ++ rest) := by
    generalize hexEscape (56320 + lo) ++ rest = tail
    simp only [hexEscape, List.tail_cons, List.cons_append, List.nil_append, unescape,
      hexUnit_hexDigits (show 55296 + hi < 65536 by omega), hhigh, if_true]
  rw [List.append_assoc, hunit, hpair]

theorem unescape_asciiEscape (c : Char) (rest : List Char) :
    unescape ((asciiEscape c).tail ++ rest) = some (c, rest) := by
  unfold asciiEscape
  by_cases h : c.toNat < 65536
  · rw [if_pos h]
    exact unescape_hexEscape h rest
  · have hc := toNat_lt c
    have hpair := unescape_pair ((c.toNat - 65536) / 1024) ((c.toNat - 65536) % 1024)
      (n := c.toNat) (by omega) (by omega) (by omega) rest
    rw [Char.ofNat_toNat] at hpair
    rw [if_neg h]
    exact hpair

/-- What `json.dumps` writes for a character is the character or an escape of it. -/
theorem escapeChar_cases (ensureAscii : Bool) (c : Char) :
    (escapeChar ensureAscii c = [c] ∧ c ≠ '"' ∧ c ≠ '\\' ∧ 32 ≤ c.toNat) ∨
      ∃ code, escapeChar ensureAscii c = '\\' :: code ∧
        ∀ rest, unescape (code ++ rest) = some (c, rest) := by
  unfold escapeChar
  split_ifs with hquote hslash hn hr ht hf hb hcontrol hascii
  · exact .inr ⟨['"'], rfl, fun rest => by rw [hquote]; rfl⟩
  · exact .inr ⟨['\\'], rfl, fun rest => by rw [hslash]; rfl⟩
  · exact .inr ⟨['n'], rfl, fun rest => by rw [hn]; rfl⟩
  · exact .inr ⟨['r'], rfl, fun rest => by rw [hr]; rfl⟩
  · exact .inr ⟨['t'], rfl, fun rest => by rw [ht]; rfl⟩
  · refine .inr ⟨['f'], rfl, fun rest => ?_⟩
    rw [← Char.ofNat_toNat c, hf]
    rfl
  · refine .inr ⟨['b'], rfl, fun rest => ?_⟩
    rw [← Char.ofNat_toNat c, hb]
    rfl
  · exact .inr ⟨_, rfl, fun rest => unescape_hexEscape (by omega) rest⟩
  · refine .inr ⟨(asciiEscape c).tail, ?_, unescape_asciiEscape c⟩
    unfold asciiEscape
    split <;> rfl
  · exact .inl ⟨rfl, hquote, hslash, by omega⟩

theorem escapeChar_length_pos (ensureAscii : Bool) (c : Char) :
    0 < (escapeChar ensureAscii c).length := by
  rcases escapeChar_cases ensureAscii c with ⟨h, _⟩ | ⟨code, h, _⟩ <;> simp [h]

theorem stringBody_flatMap (ensureAscii : Bool) (s rest : List Char) {n : ℕ}
    (hn : s.length < n) :
    stringBody n (s.flatMap (escapeChar ensureAscii) ++ '"' :: rest) = some (s, rest) := by
  induction s generalizing n with
  | nil =>
    obtain ⟨m, rfl⟩ : ∃ m, n = m + 1 := ⟨n - 1, by simp only [List.length_nil] at hn; omega⟩
    rfl
  | cons c s ih =>
    simp only [List.length_cons] at hn
    obtain ⟨m, rfl⟩ : ∃ m, n = m + 1 := ⟨n - 1, by omega⟩
    have ih := ih (n := m) (by omega)
    rw [List.flatMap_cons, List.append_assoc]
    rcases escapeChar_cases ensureAscii c with ⟨h, hquote, hslash, hle⟩ | ⟨code, h, hcode⟩
    · rw [h, List.singleton_append, stringBody, if_neg hquote, if_neg hslash,
        if_neg (by omega), ih]
      rfl
    · rw [h, List.cons_append, stringBody, if_neg (by decide), if_pos rfl, hcode]
      simp only [ih, Option.map_some]

theorem length_le_flatMap (ensureAscii : Bool) (s : List Char) :
    s.length ≤ (s.flatMap (escapeChar ensureAscii)).length := by
  induction s with
  | nil => simp
  | cons c s ih =>
    have := escapeChar_length_pos ensureAscii c
    rw [List.flatMap_cons, List.length_append, List.length_cons]
    omega

mutual

/-- A value without numbers whose dictionaries have their keys in order. -/
def Plain : Json φ → Prop
  | .null | .bool _ | .str _ => True
  | .int _ | .float _ => False
  | .arr vs => PlainItems vs
  | .obj ms => (ms.map Prod.fst).Pairwise (· < ·) ∧ PlainMembers ms

def PlainItems : List (Json φ) → Prop
  | [] => True
  | v :: vs => Plain v ∧ PlainItems vs

def PlainMembers : List (String × Json φ) → Prop
  | [] => True
  | (_, v) :: ms => Plain v ∧ PlainMembers ms

end

/-- The separators are a comma and a colon with blanks behind them. -/
structure Format.Separated (fmt : Format φ) : Prop where
  item : ∃ blanks, fmt.itemSep = ',' :: blanks ∧ ∀ c ∈ blanks, isBlank c
  key : ∃ blanks, fmt.keySep = ':' :: blanks ∧ ∀ c ∈ blanks, isBlank c

theorem skipBlanks_append {blanks : List Char} (h : ∀ c ∈ blanks, isBlank c) (rest : List Char) :
    skipBlanks (blanks ++ rest) = skipBlanks rest := by
  unfold skipBlanks
  rw [List.dropWhile_append_of_pos h]

theorem skipBlanks_cons {c : Char} (h : isBlank c = false) (rest : List Char) :
    skipBlanks (c :: rest) = c :: rest := by
  simp [skipBlanks, h]

theorem memberOrder_eq {fmt : Format φ} {ms : List (String × List Char)}
    (h : (ms.map Prod.fst).Pairwise (· < ·)) : memberOrder fmt ms = ms := by
  unfold memberOrder
  split
  · apply List.mergeSort_of_pairwise
    rw [List.pairwise_map] at h
    exact h.imp fun hlt => decide_eq_true (le_of_lt hlt)
  · rfl

theorem map_fst_dumpsMembers (fmt : Format φ) (ms : List (String × Json φ)) :
    (dumpsMembers fmt ms).map Prod.fst = ms.map Prod.fst := by
  induction ms with
  | nil => rfl
  | cons m ms ih =>
    obtain ⟨k, v⟩ := m
    simp [dumpsMembers, ih]

theorem setKey_of_not_mem {key : String} {v : Json φ} {d : List (String × Json φ)}
    (h : key ∉ d.map Prod.fst) : setKey key v d = d ++ [(key, v)] := by
  induction d with
  | nil => rfl
  | cons p d ih =>
    obtain ⟨k, w⟩ := p
    simp only [List.map_cons, List.mem_cons, not_or] at h
    rw [setKey, if_neg (Ne.symm h.1), ih h.2]
    rfl

/-- Pairs without a repeated key are a dictionary already. -/
theorem dictOf_eq_self {pairs : List (String × Json φ)} (h : (pairs.map Prod.fst).Nodup) :
    dictOf pairs = pairs := by
  have hfold : ∀ (pairs d : List (String × Json φ)), ((d ++ pairs).map Prod.fst).Nodup →
      pairs.foldl (fun d p => setKey p.1 p.2 d) d = d ++ pairs := by
    intro pairs
    induction pairs with
    | nil => simp
    | cons p pairs ih =>
      intro d hd
      have hp : p.1 ∉ d.map Prod.fst := by
        rw [List.map_append, List.map_cons, List.nodup_middle] at hd
        intro hmem
        exact (List.nodup_cons.1 hd).1 (List.mem_append_left _ hmem)
      rw [List.foldl_cons, setKey_of_not_mem hp, ih _ (by simpa using hd)]
      simp
  exact hfold pairs [] h

/-- A value's text starts with neither a blank nor a closing bracket. -/
theorem dumps_head (fmt : Format φ) {v : Json φ} (h : Plain v) :
    ∃ c cs, dumps fmt v = c :: cs ∧ isBlank c = false ∧ c ≠ ']' ∧ c ≠ '\x7d' := by
  cases v with
  | null => exact ⟨'n', _, rfl, by decide, by decide, by decide⟩
  | bool b =>
    cases b
    · exact ⟨'f', _, rfl, by decide, by decide, by decide⟩
    · exact ⟨'t', _, rfl, by decide, by decide, by decide⟩
  | int n => exact h.elim
  | float x => exact h.elim
  | str s => exact ⟨'"', _, by rw [dumps, dumpsString]; rfl, by decide, by decide, by decide⟩
  | arr vs => exact ⟨'[', _, by rw [dumps]; rfl, by decide, by decide, by decide⟩
  | obj ms => exact ⟨'\x7b', _, by rw [dumps]; rfl, by decide, by decide, by decide⟩

/-- The text of a nonempty array behind its opening bracket. -/
def itemsText (fmt : Format φ) (vs : List (Json φ)) : List Char :=
  fmt.itemSep.intercalate (dumpsItems fmt vs) ++ [']']

/-- The text of a nonempty dictionary with ordered keys behind its opening brace. -/
def membersText (fmt : Format φ) (ms : List (String × Json φ)) : List Char :=
  fmt.itemSep.intercalate ((dumpsMembers fmt ms).map (dumpsMember fmt)) ++ ['\x7d']

theorem itemsText_cons (fmt : Format φ) (v w : Json φ) (vs : List (Json φ)) :
    itemsText fmt (v :: w :: vs) = dumps fmt v ++ fmt.itemSep ++ itemsText fmt (w :: vs) := by
  simp only [itemsText, dumpsItems, List.intercalate_cons_cons, List.append_assoc]

theorem itemsText_singleton (fmt : Format φ) (v : Json φ) :
    itemsText fmt [v] = dumps fmt v ++ [']'] := by
  simp [itemsText, dumpsItems, List.intercalate]

theorem membersText_cons (fmt : Format φ) (m n : String × Json φ) (ms : List (String × Json φ)) :
    membersText fmt (m :: n :: ms) =
      dumpsString fmt.ensureAscii m.1 ++ fmt.keySep ++ dumps fmt m.2 ++ fmt.itemSep ++
        membersText fmt (n :: ms) := by
  simp only [membersText, dumpsMembers, List.map_cons, List.intercalate_cons_cons, dumpsMember,
    List.append_assoc]

theorem membersText_singleton (fmt : Format φ) (m : String × Json φ) :
    membersText fmt [m] =
      dumpsString fmt.ensureAscii m.1 ++ fmt.keySep ++ dumps fmt m.2 ++ ['\x7d'] := by
  simp [membersText, dumpsMembers, List.intercalate, dumpsMember]

/-- Behind a string the parser goes on where the string ends. -/
theorem stringBody_dumpsString (ensureAscii : Bool) (s : String) (rest : List Char) {n : ℕ}
    (hn : (dumpsString ensureAscii s).length < n + 1) :
    ∃ body, dumpsString ensureAscii s ++ rest = '"' :: body ∧
      stringBody n body = some (s.toList, rest) := by
  refine ⟨s.toList.flatMap (escapeChar ensureAscii) ++ '"' :: rest, ?_, ?_⟩
  · simp [dumpsString]
  · apply stringBody_flatMap
    have := length_le_flatMap ensureAscii s.toList
    simp only [dumpsString, List.length_cons, List.length_append, List.length_nil] at hn
    omega

section Roundtrip

variable {fmt : Format φ} (float : List Char → φ)

theorem skipBlanks_itemSep (hfmt : fmt.Separated) (rest : List Char) :
    skipBlanks (fmt.itemSep ++ rest) = fmt.itemSep ++ rest ∧
      ∃ blanks, fmt.itemSep ++ rest = ',' :: blanks ∧ skipBlanks blanks = skipBlanks rest := by
  obtain ⟨blanks, hsep, hblanks⟩ := hfmt.item
  rw [hsep]
  exact ⟨skipBlanks_cons (by decide) _, blanks ++ rest, rfl, skipBlanks_append hblanks rest⟩

theorem skipBlanks_keySep (hfmt : fmt.Separated) (rest : List Char) :
    skipBlanks (fmt.keySep ++ rest) = fmt.keySep ++ rest ∧
      ∃ blanks, fmt.keySep ++ rest = ':' :: blanks ∧ skipBlanks blanks = skipBlanks rest := by
  obtain ⟨blanks, hsep, hblanks⟩ := hfmt.key
  rw [hsep]
  exact ⟨skipBlanks_cons (by decide) _, blanks ++ rest, rfl, skipBlanks_append hblanks rest⟩

theorem skipBlanks_dumps {v : Json φ} (h : Plain v) (rest : List Char) :
    skipBlanks (dumps fmt v ++ rest) = dumps fmt v ++ rest := by
  obtain ⟨c, cs, hv, hc, _⟩ := dumps_head fmt h
  rw [hv, List.cons_append]
  exact skipBlanks_cons hc _

variable (fmt) in
theorem itemsText_head {v : Json φ} (h : Plain v) (vs : List (Json φ)) (rest : List Char) :
    ∃ c cs, itemsText fmt (v :: vs) ++ rest = c :: cs ∧ isBlank c = false ∧ c ≠ ']' := by
  obtain ⟨c, cs, hv, hc, hne, _⟩ := dumps_head fmt h
  cases vs with
  | nil => exact ⟨c, _, by rw [itemsText_singleton, hv]; rfl, hc, hne⟩
  | cons w vs =>
    exact ⟨c, _, by rw [itemsText_cons, hv]; rfl, hc, hne⟩

variable (fmt) in
theorem membersText_head (m : String × Json φ) (ms : List (String × Json φ)) (rest : List Char) :
    ∃ cs, membersText fmt (m :: ms) ++ rest = '"' :: cs := by
  cases ms with
  | nil => exact ⟨_, by rw [membersText_singleton, dumpsString]; rfl⟩
  | cons n ms => exact ⟨_, by rw [membersText_cons, dumpsString]; rfl⟩

mutual

theorem value_dumps (hfmt : fmt.Separated) : ∀ (v : Json φ), Plain v → ∀ (n : ℕ)
    (rest : List Char), (dumps fmt v).length < n → value float n (dumps fmt v ++ rest) = some (v, rest)
  | v, hv, 0, rest, hn => by omega
  | .null, _, n + 1, rest, _ => rfl
  | .bool true, _, n + 1, rest, _ => rfl
  | .bool false, _, n + 1, rest, _ => rfl
  | .int _, hv, _, _, _ => hv.elim
  | .float _, hv, _, _, _ => hv.elim
  | .str s, _, n + 1, rest, hn => by
    obtain ⟨body, hbody, hparse⟩ := stringBody_dumpsString fmt.ensureAscii s rest hn
    rw [dumps, hbody, value, hparse]
    simp
  | .arr [], _, n + 1, rest, _ => rfl
  | .arr (v :: vs), hv, n + 1, rest, hn => by
    have htext : dumps fmt (.arr (v :: vs)) = '[' :: itemsText fmt (v :: vs) := by
      rw [dumps, itemsText, List.cons_append]
    rw [htext, List.length_cons] at hn
    have hitems := items_itemsText hfmt v vs hv n rest (by omega)
    obtain ⟨c, cs, hcs, hblank, hne⟩ := itemsText_head fmt hv.1 vs rest
    rw [htext, List.cons_append]
    rw [hcs] at hitems ⊢
    simp only [value, skipBlanks_cons hblank]
    split
    · simp_all
    · rw [hitems]
      rfl
  | .obj [], _, n + 1, rest, _ => by
    simp [dumps, dumpsMembers, memberOrder, value, skipBlanks, isBlank]
  | .obj (m :: ms), hv, n + 1, rest, hn => by
    have htext : dumps fmt (.obj (m :: ms)) = '\x7b' :: membersText fmt (m :: ms) := by
      rw [dumps, membersText, memberOrder_eq (by rw [map_fst_dumpsMembers]; exact hv.1),
        List.cons_append]
    rw [htext, List.length_cons] at hn
    have hmembers := members_membersText hfmt m ms hv.2 n rest (by omega)
    have hdict : dictOf (m :: ms) = m :: ms :=
      dictOf_eq_self (hv.1.imp fun hlt heq => absurd hlt (by rw [heq]; exact lt_irrefl _))
    obtain ⟨cs, hcs⟩ := membersText_head fmt m ms rest
    rw [htext, List.cons_append]
    rw [hcs] at hmembers ⊢
    simp only [value, skipBlanks_cons (show isBlank '"' = false by decide)]
    split
    · simp_all
    · rw [hmembers, Option.map_some, hdict]

theorem items_itemsText (hfmt : fmt.Separated) : ∀ (v : Json φ) (vs : List (Json φ)),
    PlainItems (v :: vs) → ∀ (n : ℕ) (rest : List Char), (itemsText fmt (v :: vs)).length < n →
      items float n (itemsText fmt (v :: vs) ++ rest) = some (v :: vs, rest)
  | v, vs, hv, 0, rest, hn => by omega
  | v, [], hv, n + 1, rest, hn => by
    rw [itemsText_singleton, List.length_append] at hn
    rw [itemsText_singleton, List.append_assoc, items,
      value_dumps hfmt v hv.1 n _ (by simp only [List.length_singleton] at hn; omega)]
    rfl
  | v, w :: vs, hv, n + 1, rest, hn => by
    obtain ⟨hskip, blanks, hsep, hblanks⟩ :=
      skipBlanks_itemSep hfmt (itemsText fmt (w :: vs) ++ rest)
    have hlen : 0 < fmt.itemSep.length := by
      obtain ⟨blanks, hsep, _⟩ := hfmt.item
      simp [hsep]
    rw [itemsText_cons, List.length_append, List.length_append] at hn
    have hvalue := value_dumps hfmt v hv.1 n (fmt.itemSep ++ (itemsText fmt (w :: vs) ++ rest)) (by omega)
    have hitems := items_itemsText hfmt w vs hv.2 n rest (by omega)
    obtain ⟨c, cs, hcs, hblank, _⟩ := itemsText_head fmt hv.2.1 vs rest
    rw [itemsText_cons, List.append_assoc, List.append_assoc, items, hvalue]
    simp only [hskip]
    rw [hsep]
    simp only [hblanks]
    rw [hcs, skipBlanks_cons hblank, ← hcs, hitems]
    rfl

theorem members_membersText (hfmt : fmt.Separated) : ∀ (m : String × Json φ) (ms : List (String × Json φ)),
    PlainMembers (m :: ms) → ∀ (n : ℕ) (rest : List Char),
      (membersText fmt (m :: ms)).length < n →
        members float n (membersText fmt (m :: ms) ++ rest) = some (m :: ms, rest)
  | m, ms, hm, 0, rest, hn => by omega
  | (k, v), [], hm, n + 1, rest, hn => by
    rw [membersText_singleton] at hn
    simp only [List.length_append, List.length_singleton] at hn
    obtain ⟨body, hbody, hkey⟩ := stringBody_dumpsString fmt.ensureAscii k
      (fmt.keySep ++ (dumps fmt v ++ (['\x7d'] ++ rest))) (n := n) (by omega)
    obtain ⟨hskip, blanks, hsep, hblanks⟩ :=
      skipBlanks_keySep hfmt (dumps fmt v ++ (['\x7d'] ++ rest))
    have hvalue := value_dumps hfmt v hm.1 n (['\x7d'] ++ rest) (by omega)
    rw [membersText_singleton]
    simp only [List.append_assoc]
    rw [hbody, members]
    simp only [hkey, hskip]
    rw [hsep]
    simp only [hblanks, skipBlanks_dumps hm.1, hvalue]
    simp [skipBlanks, isBlank]
  | (k, v), m :: ms, hm, n + 1, rest, hn => by
    rw [membersText_cons] at hn
    simp only [List.length_append] at hn
    have hlen : 0 < fmt.itemSep.length := by
      obtain ⟨blanks, hsep, _⟩ := hfmt.item
      simp [hsep]
    obtain ⟨body, hbody, hkey⟩ := stringBody_dumpsString fmt.ensureAscii k
      (fmt.keySep ++ (dumps fmt v ++ (fmt.itemSep ++ (membersText fmt (m :: ms) ++ rest))))
      (n := n) (by omega)
    obtain ⟨hskip, blanks, hsep, hblanks⟩ :=
      skipBlanks_keySep hfmt (dumps fmt v ++ (fmt.itemSep ++ (membersText fmt (m :: ms) ++ rest)))
    obtain ⟨hskip', blanks', hsep', hblanks'⟩ :=
      skipBlanks_itemSep hfmt (membersText fmt (m :: ms) ++ rest)
    have hvalue := value_dumps hfmt v hm.1 n (fmt.itemSep ++ (membersText fmt (m :: ms) ++ rest))
      (by omega)
    have hmembers := members_membersText hfmt m ms hm.2 n rest (by omega)
    obtain ⟨cs, hcs⟩ := membersText_head fmt m ms rest
    rw [membersText_cons]
    simp only [List.append_assoc]
    rw [hbody, members]
    simp only [hkey, hskip]
    rw [hsep]
    simp only [hblanks, skipBlanks_dumps hm.1, hvalue, hskip']
    rw [hsep']
    simp only [hblanks']
    rw [hcs, skipBlanks_cons (by decide), ← hcs, hmembers]
    simp

end

/-- `json.loads(json.dumps(value))`. -/
theorem loads_dumps (hfmt : fmt.Separated) {v : Json φ} (hv : Plain v) : loads float (dumps fmt v) = some v := by
  have hskip : skipBlanks (dumps fmt v ++ []) = dumps fmt v ++ [] := skipBlanks_dumps hv []
  have hvalue := value_dumps float hfmt v hv ((dumps fmt v).length + 1) [] (by omega)
  rw [List.append_nil] at hskip hvalue
  rw [loads, hskip, hvalue]
  rfl

end Roundtrip

/-! ## The characters of a text -/

mutual

/-- A test of every string of a value, as a text or as a key. -/
def allTexts (p : String → Bool) : Json φ → Bool
  | .str s => p s
  | .arr vs => allItems p vs
  | .obj ms => allMembers p ms
  | _ => true

def allItems (p : String → Bool) : List (Json φ) → Bool
  | [] => true
  | v :: vs => allTexts p v && allItems p vs

def allMembers (p : String → Bool) : List (String × Json φ) → Bool
  | [] => true
  | (k, v) :: ms => p k && allTexts p v && allMembers p ms

end

/-- Printable ASCII. -/
def IsPrintable (c : Char) : Prop := 32 ≤ c.toNat ∧ c.toNat < 127

instance isPrintableDecidable (c : Char) : Decidable (IsPrintable c) :=
  inferInstanceAs (Decidable (_ ∧ _))

theorem hexDigit_printable {n : ℕ} (h : n < 16) : IsPrintable (hexDigit n) := by
  interval_cases n <;> decide

theorem hexEscape_printable (n : ℕ) : ∀ c ∈ hexEscape n, IsPrintable c := by
  have hdigit : ∀ m, IsPrintable (hexDigit (m % 16)) :=
    fun m => hexDigit_printable (Nat.mod_lt _ (by omega))
  intro c hc
  simp only [hexEscape, List.mem_cons, List.not_mem_nil, or_false] at hc
  rcases hc with rfl | rfl | rfl | rfl | rfl | rfl
  · decide
  · decide
  · exact hdigit _
  · exact hdigit _
  · exact hdigit _
  · exact hdigit _

/-- An escape is printable; only a character beyond ASCII is left as it is. -/
theorem escapeChar_printable (ensureAscii : Bool) (c : Char) :
    ∀ d ∈ escapeChar ensureAscii c, IsPrintable d ∨ d = c ∧ 126 < c.toNat := by
  intro d hd
  unfold escapeChar at hd
  split_ifs at hd with hquote hslash hn hr ht hf hb hcontrol hascii
  iterate 7
    left
    simp only [List.mem_cons, List.not_mem_nil, or_false] at hd
    rcases hd with rfl | rfl <;> decide
  · exact .inl (hexEscape_printable _ d hd)
  · left
    unfold asciiEscape at hd
    split at hd
    · exact hexEscape_printable _ d hd
    · rcases List.mem_append.1 hd with hd | hd
      · exact hexEscape_printable _ d hd
      · exact hexEscape_printable _ d hd
  · obtain rfl : d = c := by simpa using hd
    by_cases hlt : d.toNat < 127
    · exact .inl ⟨by omega, hlt⟩
    · exact .inr ⟨rfl, by omega⟩

theorem dumpsString_chars {P : Char → Prop} (hprintable : ∀ c, IsPrintable c → P c)
    (ensureAscii : Bool) {s : String} (hs : ∀ c ∈ s.toList, P c) :
    ∀ c ∈ dumpsString ensureAscii s, P c := by
  intro c hc
  simp only [dumpsString, List.cons_append, List.mem_cons, List.mem_append, List.mem_flatMap,
    List.not_mem_nil, or_false] at hc
  rcases hc with rfl | ⟨d, hd, hc⟩ | rfl
  · exact hprintable _ (by decide)
  · rcases escapeChar_printable ensureAscii d c hc with hc | ⟨rfl, _⟩
    · exact hprintable c hc
    · exact hs c hd
  · exact hprintable _ (by decide)

theorem intercalate_chars {P : Char → Prop} {sep : List Char} (hsep : ∀ c ∈ sep, P c)
    {parts : List (List Char)} (hparts : ∀ l ∈ parts, ∀ c ∈ l, P c) :
    ∀ c ∈ sep.intercalate parts, P c := by
  induction parts with
  | nil => simp [List.intercalate]
  | cons l parts ih =>
    have hl := hparts l List.mem_cons_self
    have ih := ih fun m hm => hparts m (List.mem_cons_of_mem _ hm)
    cases parts with
    | nil => simpa [List.intercalate] using hl
    | cons m parts =>
      intro c hc
      rw [List.intercalate_cons_cons, List.mem_append, List.mem_append] at hc
      rcases hc with (hc | hc) | hc
      · exact hl c hc
      · exact hsep c hc
      · exact ih c hc

theorem words_printable {w : List Char}
    (h : w = ['n', 'u', 'l', 'l'] ∨ w = ['t', 'r', 'u', 'e'] ∨ w = ['f', 'a', 'l', 's', 'e']) :
    ∀ c ∈ w, IsPrintable c := by
  intro c hc
  rcases h with rfl | rfl | rfl <;>
    simp only [List.mem_cons, List.not_mem_nil, or_false] at hc
  · rcases hc with rfl | rfl | rfl | rfl <;> decide
  · rcases hc with rfl | rfl | rfl | rfl <;> decide
  · rcases hc with rfl | rfl | rfl | rfl | rfl <;> decide

section Chars

variable {P : Char → Prop} {p : String → Bool} {fmt : Format φ}

/-- Printable characters, the separators and the texts that pass the test have the property. -/
structure CharsOf (P : Char → Prop) (p : String → Bool) (fmt : Format φ) : Prop where
  printable : ∀ c, IsPrintable c → P c
  item : ∀ c ∈ fmt.itemSep, P c
  key : ∀ c ∈ fmt.keySep, P c
  text : ∀ s, p s = true → ∀ c ∈ s.toList, P c

mutual

theorem dumps_chars (h : CharsOf P p fmt) : ∀ (v : Json φ), Plain v → allTexts p v = true →
    ∀ c ∈ dumps fmt v, P c
  | .null, _, _, c, hc => h.printable c (words_printable (.inl rfl) c hc)
  | .bool true, _, _, c, hc => h.printable c (words_printable (.inr (.inl rfl)) c hc)
  | .bool false, _, _, c, hc => h.printable c (words_printable (.inr (.inr rfl)) c hc)
  | .int _, hv, _, _, _ => hv.elim
  | .float _, hv, _, _, _ => hv.elim
  | .str s, _, hs, c, hc => by
    rw [dumps] at hc
    rw [allTexts] at hs
    exact dumpsString_chars h.printable fmt.ensureAscii (h.text s hs) c hc
  | .arr vs, hv, hs, c, hc => by
    rw [dumps, List.mem_append, List.mem_cons] at hc
    rw [allTexts] at hs
    rcases hc with (rfl | hc) | hc
    · exact h.printable _ (by decide)
    · exact intercalate_chars h.item (dumpsItems_chars h vs hv hs) c hc
    · obtain rfl : c = ']' := by simpa using hc
      exact h.printable _ (by decide)
  | .obj ms, hv, hs, c, hc => by
    rw [dumps, memberOrder_eq (by rw [map_fst_dumpsMembers]; exact hv.1), List.mem_append,
      List.mem_cons] at hc
    rw [allTexts] at hs
    rcases hc with (rfl | hc) | hc
    · exact h.printable _ (by decide)
    · refine intercalate_chars h.item (fun l hl => ?_) c hc
      obtain ⟨m, hm, rfl⟩ := List.mem_map.1 hl
      exact dumpsMembers_chars h ms hv.2 hs m hm
    · obtain rfl : c = '\x7d' := by simpa using hc
      exact h.printable _ (by decide)

theorem dumpsItems_chars (h : CharsOf P p fmt) : ∀ (vs : List (Json φ)), PlainItems vs →
    allItems p vs = true → ∀ l ∈ dumpsItems fmt vs, ∀ c ∈ l, P c
  | [], _, _, l, hl => by simp [dumpsItems] at hl
  | v :: vs, hv, hs, l, hl => by
    rw [dumpsItems, List.mem_cons] at hl
    simp only [allItems, Bool.and_eq_true] at hs
    rcases hl with rfl | hl
    · exact dumps_chars h v hv.1 hs.1
    · exact dumpsItems_chars h vs hv.2 hs.2 l hl

theorem dumpsMembers_chars (h : CharsOf P p fmt) : ∀ (ms : List (String × Json φ)),
    PlainMembers ms → allMembers p ms = true → ∀ m ∈ dumpsMembers fmt ms, ∀ c ∈ dumpsMember fmt m, P c
  | [], _, _, m, hm => by simp [dumpsMembers] at hm
  | (k, v) :: ms, hv, hs, m, hm => by
    rw [dumpsMembers, List.mem_cons] at hm
    simp only [allMembers, Bool.and_eq_true] at hs
    rcases hm with rfl | hm
    · intro c hc
      simp only [dumpsMember, List.mem_append] at hc
      rcases hc with (hc | hc) | hc
      · exact dumpsString_chars h.printable fmt.ensureAscii (h.text k hs.1.1) c hc
      · exact h.key c hc
      · exact dumps_chars h v hv.1 hs.1.2 c hc
    · exact dumpsMembers_chars h ms hv.2 hs.2 m hm

end

end Chars

/-- `value.get(key)` of a dictionary; `none` also where the value is none. -/
def member? (key : String) : Json φ → Option (Json φ)
  | .obj ms => (ms.find? fun m => m.1 = key).map Prod.snd
  | _ => none

def text? : Json φ → Option String
  | .str s => some s
  | _ => none

end Json

/-! ## Lines -/

/-- What ends a line for `str.splitlines`, beside the pair of `\r` and `\n`. -/
def isLineBoundary (c : Char) : Bool :=
  decide (10 ≤ c.toNat ∧ c.toNat ≤ 13 ∨ 28 ≤ c.toNat ∧ c.toNat ≤ 30 ∨ c.toNat = 133 ∨
    c.toNat = 8232 ∨ c.toNat = 8233)

/-- `str.isspace` of one character. -/
def isSpace (c : Char) : Bool :=
  isLineBoundary c || decide (c.toNat = 9 ∨ c.toNat = 31 ∨ c.toNat = 32 ∨ c.toNat = 160 ∨
    c.toNat = 5760 ∨ 8192 ≤ c.toNat ∧ c.toNat ≤ 8202 ∨ c.toNat = 8239 ∨ c.toNat = 8287 ∨
    c.toNat = 12288)

/-- `text.strip()`. -/
def strip (text : String) : String :=
  String.ofList ((text.toList.dropWhile isSpace).reverse.dropWhile isSpace).reverse

/-- `text.lower()`, as far as it decides comparisons with lower-case ASCII words: of the other
characters only the Kelvin sign becomes an ASCII letter. -/
def lower (text : String) : String :=
  String.ofList (text.toList.map fun c => if c.toNat = 8490 then 'k' else c.toLower)

/-- `text.splitlines()`. -/
def splitlines : List Char → List (List Char)
  | [] => []
  | '\r' :: '\n' :: rest => [] :: splitlines rest
  | c :: rest =>
      if isLineBoundary c then [] :: splitlines rest
      else
        match splitlines rest with
        | [] => [[c]]
        | line :: lines => (c :: line) :: lines

theorem splitlines_append {line : List Char} (h : ∀ c ∈ line, isLineBoundary c = false)
    (rest : List Char) : splitlines (line ++ '\n' :: rest) = line :: splitlines rest := by
  induction line with
  | nil =>
    rw [List.nil_append, splitlines, if_pos (by decide)]
    simp
  | cons c line ih =>
    have hc := h c List.mem_cons_self
    have hcr : c ≠ '\r' := by
      rintro rfl
      exact absurd hc (by decide)
    rw [List.cons_append, splitlines, if_neg (by rw [hc]; decide),
      ih fun d hd => h d (List.mem_cons_of_mem _ hd)]
    intro rest' hcons
    exact absurd hcons hcr

/-- Lines without a boundary are read back one by one. -/
theorem splitlines_lines (lines : List (List Char))
    (h : ∀ line ∈ lines, ∀ c ∈ line, isLineBoundary c = false) :
    splitlines (lines.flatMap fun line => line ++ ['\n']) = lines := by
  induction lines with
  | nil => rfl
  | cons line lines ih =>
    rw [List.flatMap_cons, List.append_assoc, List.singleton_append,
      splitlines_append (h line List.mem_cons_self),
      ih fun l hl => h l (List.mem_cons_of_mem _ hl)]

/-- The text stands on one line. -/
def isOneLine (s : String) : Bool := s.toList.all fun c => !isLineBoundary c

theorem isOneLine_iff {s : String} :
    isOneLine s = true ↔ ∀ c ∈ s.toList, isLineBoundary c = false := by
  simp [isOneLine]

/-- A printable character ends no line. -/
theorem not_lineBoundary_of_printable {c : Char} (h : Json.IsPrintable c) :
    isLineBoundary c = false := by
  obtain ⟨hlow, hhigh⟩ := h
  simp only [isLineBoundary, decide_eq_false_iff_not]
  omega

end ResearchLab.Foundation
