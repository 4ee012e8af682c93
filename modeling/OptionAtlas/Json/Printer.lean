import OptionAtlas.Tree

/-!
# JSON text

A document is written compactly, without blanks, or with each item on a line of its
own, two spaces deeper than the bracket that opens it. Empty lists and records are
`[]` and an empty pair of braces in both forms. No line break follows the document.

## Main definitions

* `Json.escaped` — one character inside a string.
* `Json.string` — a string.
* `Json.compact`, `Json.pretty` — a document.
-/

namespace OptionAtlas.Json

/-- A hexadecimal digit in lower case. -/
def hexDigit (n : Nat) : Char := Nat.digitChar n

/-- One character inside a string. Control characters below the space are escaped,
and so are the quote and the backslash; nothing else is. -/
def escaped (c : Char) : List Char :=
  if c = '"' then ['\\', '"']
  else if c = '\\' then ['\\', '\\']
  else if c = '\x08' then ['\\', 'b']
  else if c = '\t' then ['\\', 't']
  else if c = '\n' then ['\\', 'n']
  else if c = '\x0c' then ['\\', 'f']
  else if c = '\r' then ['\\', 'r']
  else if c.toNat < 0x20 then
    ['\\', 'u', '0', '0', hexDigit (c.toNat / 16), hexDigit (c.toNat % 16)]
  else [c]

/-- A string between quotes. -/
def string (s : String) : List Char := '"' :: s.toList.flatMap escaped ++ ['"']

/-! ## Compact form -/

mutual

/-- A document without blanks. -/
def compactChars : Tree → List Char
  | .text s => string s
  | .list [] => ['[', ']']
  | .list (t :: ts) => '[' :: compactChars t ++ compactItems ts ++ [']']
  | .record [] => ['{', '}']
  | .record ((k, t) :: fs) => '{' :: string k ++ ':' :: compactChars t ++ compactFields fs ++ ['}']

/-- The items after the first, each with its comma. -/
def compactItems : List Tree → List Char
  | [] => []
  | t :: ts => ',' :: compactChars t ++ compactItems ts

/-- The fields after the first, each with its comma. -/
def compactFields : List (String × Tree) → List Char
  | [] => []
  | (k, t) :: fs => ',' :: string k ++ ':' :: compactChars t ++ compactFields fs

end

/-- A document without blanks. -/
def compact (t : Tree) : String := String.ofList (compactChars t)

/-! ## Indented form -/

/-- A line break and the indentation of depth `d`. -/
def newline (d : Nat) : List Char := '\n' :: List.replicate (2 * d) ' '

mutual

/-- A document whose closing bracket stands at depth `d`. -/
def prettyChars (d : Nat) : Tree → List Char
  | .text s => string s
  | .list [] => ['[', ']']
  | .list (t :: ts) =>
    '[' :: newline (d + 1) ++ prettyChars (d + 1) t ++ prettyItems (d + 1) ts ++ newline d ++ [']']
  | .record [] => ['{', '}']
  | .record ((k, t) :: fs) =>
    '{' :: newline (d + 1) ++ string k ++ ':' :: ' ' :: prettyChars (d + 1) t
      ++ prettyFields (d + 1) fs ++ newline d ++ ['}']

/-- The items after the first at depth `d`, each with its comma. -/
def prettyItems (d : Nat) : List Tree → List Char
  | [] => []
  | t :: ts => ',' :: newline d ++ prettyChars d t ++ prettyItems d ts

/-- The fields after the first at depth `d`, each with its comma. -/
def prettyFields (d : Nat) : List (String × Tree) → List Char
  | [] => []
  | (k, t) :: fs =>
    ',' :: newline d ++ string k ++ ':' :: ' ' :: prettyChars d t ++ prettyFields d fs

end

/-- A document with every item on its own line. -/
def pretty (t : Tree) : String := String.ofList (prettyChars 0 t)

end OptionAtlas.Json
