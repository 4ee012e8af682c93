import OptionAtlas.Json.Number

/-!
# Reading JSON

A text is read once, from left to right, straight into the record that is wanted.
A record may be written with braces or, with its fields in order, as a list.
Fields that the record does not have are skipped; the skipped value is checked for
syntax only, to any depth, and its strings may hold lone surrogates and stray bytes.

## Main definitions

* `Json.Reader` — the source of records.
* `Json.readDocument` — reads a whole text.
-/

namespace OptionAtlas.Json

open OptionAtlas.Text

/-- Reads from the front of a text. -/
abbrev Reader := StateT (List Symbol) (Except Fault)

/-! ## Blanks, words and strings -/

/-- The four characters that may stand between tokens. -/
def isGap : Symbol → Bool
  | .char c => c = ' ' || c = '\n' || c = '\t' || c = '\r'
  | .stray _ => false

/-- The text after its leading blanks. -/
def skipGap (s : List Symbol) : List Symbol := s.dropWhile isGap

/-- The text after `word`, if it starts with it. -/
def dropWord : List Char → List Symbol → Option (List Symbol)
  | [], s => some s
  | w :: ws, .char c :: s => if c = w then dropWord ws s else none
  | _ :: _, _ => none

/-- The value of a hexadecimal digit. -/
def hexValue? : Symbol → Option Nat
  | .char c =>
    if c.isDigit then some (c.toNat - '0'.toNat)
    else if 'a' ≤ c ∧ c ≤ 'f' then some (c.toNat - 'a'.toNat + 10)
    else if 'A' ≤ c ∧ c ≤ 'F' then some (c.toNat - 'A'.toNat + 10)
    else none
  | .stray _ => none

/-- Four hexadecimal digits at the front of a text. -/
def hexUnit : List Symbol → Option (Nat × List Symbol)
  | a :: b :: c :: d :: rest => do
    pure (((← hexValue? a) * 16 + (← hexValue? b)) * 256
      + (← hexValue? c) * 16 + (← hexValue? d), rest)
  | _ => none

/-- The character that follows a backslash and `u`. A high surrogate needs the
escape of a low one after it. -/
def unicodeEscape (s : List Symbol) : Option (Char × List Symbol) := do
  let (n, s) ← hexUnit s
  if 0xDC00 ≤ n ∧ n ≤ 0xDFFF then none
  else if 0xD800 ≤ n ∧ n ≤ 0xDBFF then
    match s with
    | .char '\\' :: .char 'u' :: s =>
      let (low, s) ← hexUnit s
      if 0xDC00 ≤ low ∧ low ≤ 0xDFFF then
        pure (Char.ofNat (0x10000 + (n - 0xD800) * 0x400 + (low - 0xDC00)), s)
      else none
    | _ => none
  else pure (Char.ofNat n, s)

/-- The character of a one-letter escape. -/
def shortEscape? : Char → Option Char
  | '"' => some '"'
  | '\\' => some '\\'
  | '/' => some '/'
  | 'b' => some '\x08'
  | 'f' => some '\x0c'
  | 'n' => some '\n'
  | 'r' => some '\r'
  | 't' => some '\t'
  | _ => none

/-- The character that follows a backslash. -/
def escape : List Symbol → Option (Char × List Symbol)
  | .char 'u' :: s => unicodeEscape s
  | .char c :: s => (shortEscape? c).map (·, s)
  | _ => none

/-- The characters of a string up to its closing quote, and the text after it. -/
def stringBody : Nat → List Symbol → Option (List Char × List Symbol)
  | 0, _ => none
  | fuel + 1, s =>
    match s with
    | .char '"' :: rest => some ([], rest)
    | .char '\\' :: rest => do
      let (c, rest) ← escape rest
      let (cs, rest) ← stringBody fuel rest
      pure (c :: cs, rest)
    | .char c :: rest =>
      if c.toNat < 0x20 then none
      else do
        let (cs, rest) ← stringBody fuel rest
        pure (c :: cs, rest)
    | _ => none

/-- The string that follows an opening quote. -/
def readString (s : List Symbol) : Except Fault (String × List Symbol) :=
  match stringBody s.length s with
  | some (cs, rest) => .ok (String.ofList cs, rest)
  | none => .error .malformed

/-! ## Values of the wrong kind -/

/-- What a text starts with, where something else was expected. -/
def wrongKind (s : List Symbol) (expected : String) : Fault :=
  let fault (found : Option Found) : Fault := match found with
    | some f => .mismatch [] (.kind f expected)
    | none => .malformed
  match s with
  | .char 'n' :: _ => fault ((dropWord "null".toList s).map fun _ => .nothing "null")
  | .char 't' :: _ => fault ((dropWord "true".toList s).map fun _ => .boolean true)
  | .char 'f' :: _ => fault ((dropWord "false".toList s).map fun _ => .boolean false)
  | .char '"' :: rest =>
    fault ((stringBody rest.length rest).map fun r => .text (String.ofList r.1))
  | .char '[' :: _ => fault (some .sequence)
  | .char '{' :: _ => fault (some .mapping)
  | .char c :: _ =>
    if c = '-' ∨ c.isDigit then fault ((Numeral.read s).bind fun r => r.1.found) else .malformed
  | _ => .malformed

/-! ## Skipping -/

/-- The text after a string that follows its opening quote; escapes are checked
for their form only. -/
def skipString : Nat → List Symbol → Option (List Symbol)
  | 0, _ => none
  | fuel + 1, s =>
    match s with
    | .char '"' :: rest => some rest
    | .char '\\' :: .char 'u' :: rest => do skipString fuel (← hexUnit rest).2
    | .char '\\' :: .char c :: rest =>
      if (shortEscape? c).isSome then skipString fuel rest else none
    | .char c :: rest => if c.toNat < 0x20 ∨ c = '\\' then none else skipString fuel rest
    | .stray _ :: rest => skipString fuel rest
    | [] => none

/-- The text after the key of a field and its colon. -/
def skipKey (s : List Symbol) : Option (List Symbol) :=
  match skipGap s with
  | .char '"' :: rest => do
    match skipGap (← skipString rest.length rest) with
    | .char ':' :: rest => some rest
    | _ => none
  | _ => none

/-- The text after a value that holds no other. -/
def skipLeaf (s : List Symbol) : Option (List Symbol) :=
  match s with
  | .char 'n' :: _ => dropWord "null".toList s
  | .char 't' :: _ => dropWord "true".toList s
  | .char 'f' :: _ => dropWord "false".toList s
  | .char '"' :: rest => skipString rest.length rest
  | .char c :: _ =>
    if c = '-' ∨ c.isDigit then (Numeral.read s).map (·.2) else none
  | _ => none

mutual

/-- The text after a value inside the brackets in `stack`, innermost first, and
after everything up to the last of those brackets. `true` stands for braces. -/
def skipValue : Nat → List Bool → List Symbol → Option (List Symbol)
  | 0, _, _ => none
  | fuel + 1, stack, s =>
    match skipGap s with
    | .char '[' :: rest =>
      match skipGap rest with
      | .char ']' :: rest => skipEnd fuel stack rest
      | rest => skipValue fuel (false :: stack) rest
    | .char '{' :: rest =>
      match skipGap rest with
      | .char '}' :: rest => skipEnd fuel stack rest
      | rest => do skipValue fuel (true :: stack) (← skipKey rest)
    | s => do skipEnd fuel stack (← skipLeaf s)

/-- What may follow a value inside the brackets in `stack`. -/
def skipEnd : Nat → List Bool → List Symbol → Option (List Symbol)
  | _, [], s => some s
  | 0, _ :: _, _ => none
  | fuel + 1, braces :: stack, s =>
    match skipGap s with
    | .char ',' :: rest => do
      skipValue fuel (braces :: stack) (← if braces then skipKey rest else some rest)
    | .char ']' :: rest => if braces then none else skipEnd fuel stack rest
    | .char '}' :: rest => if braces then skipEnd fuel stack rest else none
    | _ => none

end

/-- The text after a value of any kind. -/
def skip (s : List Symbol) : Except Fault (List Symbol) :=
  match skipValue (2 * s.length + 2) [] s with
  | some rest => .ok rest
  | none => .error .malformed

/-! ## Texts -/

/-- A string. -/
def text : Reader String := fun s =>
  match skipGap s with
  | .char '"' :: rest => readString rest
  | s => .error (wrongKind s "a string")

/-- A string or `null`. -/
def optionalText : Reader (Option String) := fun s =>
  match skipGap s with
  | .char 'n' :: rest =>
    match dropWord "ull".toList rest with
    | some rest => .ok (none, rest)
    | none => .error .malformed
  | _ => (some <$> text) s

/-! ## Lists -/

/-- Moves to the next item of a list: the text at the item, or `none` in front of
the closing bracket. -/
def nextItem (first : Bool) (s : List Symbol) : Except Fault (Option (List Symbol)) :=
  match skipGap s, first with
  | .char ']' :: _, _ => .ok none
  | [], _ => .error .malformed
  | s, true => .ok (some s)
  | .char ',' :: rest, false =>
    match skipGap rest with
    | .char ']' :: _ => .error .malformed
    | [] => .error .malformed
    | rest => .ok (some rest)
  | _, false => .error .malformed

/-- The text after a closing bracket. -/
def closeList (s : List Symbol) : Except Fault (List Symbol) :=
  match skipGap s with
  | .char ']' :: rest => .ok rest
  | _ => .error .malformed

/-- The items of a list up to its closing bracket, which is left. -/
def itemLoop {α : Type} (item : Reader α) : Nat → Bool → List Symbol →
    Except Fault (List α × List Symbol)
  | 0, _, _ => .error .malformed
  | fuel + 1, first, s => do
    match ← nextItem first s with
    | none => pure ([], s)
    | some s =>
      let (a, s) ← item s
      let (as, s) ← itemLoop item fuel false s
      pure (a :: as, s)

/-- A list. -/
def items {α : Type} (item : Reader α) : Reader (List α) := fun s =>
  match skipGap s with
  | .char '[' :: rest => do
    let (as, s) ← itemLoop item (rest.length + 1) true rest
    pure (as, ← closeList s)
  | s => .error (wrongKind s "a sequence")

/-! ## Records -/

/-- The fields of a record written as a list, `index` of them read already. -/
def elementLoop {α : Type} (expected : String) :
    Nat → List (Field Reader α) → α → List Symbol → Except Fault (α × List Symbol)
  | _, [], a, s => .ok (a, s)
  | index, f :: fs, a, s => do
    match ← nextItem (index == 0) s with
    | none =>
      if f.required then throw (.mismatch [] (.length index expected))
      else elementLoop expected (index + 1) fs a s
    | some s =>
      let (a, s) ← f.read a s
      elementLoop expected (index + 1) fs a s

/-- Moves to the next field of a record in braces: its name and the text after the
name, or `none` in front of the closing brace. -/
def nextField (first : Bool) (s : List Symbol) :
    Except Fault (Option (String × List Symbol)) :=
  match skipGap s, first with
  | .char '}' :: _, _ => .ok none
  | .char '"' :: rest, true => some <$> readString rest
  | .char ',' :: rest, false =>
    match skipGap rest with
    | .char '"' :: rest => some <$> readString rest
    | _ => .error .malformed
  | _, _ => .error .malformed

/-- The text after the colon of a field. -/
def colon (s : List Symbol) : Except Fault (List Symbol) :=
  match skipGap s with
  | .char ':' :: rest => .ok rest
  | _ => .error .malformed

/-- The fields of a record in braces up to the closing brace, which is left. -/
def fieldLoop {α : Type} (fields : List (Field Reader α)) :
    Nat → List String → α → List Symbol → Except Fault (α × List String × List Symbol)
  | 0, _, _, _ => .error .malformed
  | fuel + 1, seen, a, s => do
    match ← nextField seen.isEmpty s with
    | none => pure (a, seen, s)
    | some (name, s) =>
      match fields.find? (·.name == name) with
      | some f =>
        if name ∈ seen then throw (.mismatch [] (.duplicate name))
        let (a, s) ← f.read a (← colon s)
        fieldLoop fields fuel (name :: seen) a s
      | none =>
        let s ← skip (← colon s)
        fieldLoop fields fuel (name :: seen) a s

/-- The text after a closing brace. -/
def closeRecord (s : List Symbol) : Except Fault (List Symbol) :=
  match skipGap s with
  | .char '}' :: rest => .ok rest
  | _ => .error .malformed

/-- A record. -/
def record {α : Type} (title : String) (empty : α) (fields : List (Field Reader α)) :
    Reader α := fun s =>
  match skipGap s with
  | .char '[' :: rest => do
    let expected := "struct " ++ title ++ " with " ++ toString fields.length ++ " elements"
    let (a, s) ← elementLoop expected 0 fields empty rest
    pure (a, ← closeList s)
  | .char '{' :: rest => do
    let (a, seen, s) ← fieldLoop fields (rest.length + 1) [] empty rest
    match firstMissing? seen fields with
    | some name => throw (.mismatch [] (.missing name))
    | none => pure (a, ← closeRecord s)
  | s => .error (wrongKind s ("struct " ++ title))

instance : Source Reader where
  text := text
  optionalText := optionalText
  items := items
  record := record

/-- Reads a whole text; nothing but blanks may follow the value. -/
def readDocument {α : Type} (r : Reader α) (s : List Symbol) : Except Fault α := do
  let (a, rest) ← r s
  match skipGap rest with
  | [] => pure a
  | _ => throw .malformed

end OptionAtlas.Json
