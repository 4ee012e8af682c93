import OptionAtlas.Tree
import OptionAtlas.Yaml.Style

/-!
# YAML text

A document is written in block style: one field or item per line, fields two columns
deeper than the record around them, and the dashes of a list at the column of the
field that holds it. Empty lists and records are written with brackets. Long lines
are not folded.

## Main definitions

* `Yaml.scalarChars` — a text.
* `Yaml.print` — a document.
-/

namespace OptionAtlas.Yaml

/-! ## Texts -/

/-- A text between single quotes, with quotes written twice; a line of its own starts
at column `depth`. `fresh` says whether a break was just written. -/
def singleBody (depth : Nat) : Bool → List Char → List Char
  | fresh, [] => (if fresh then List.replicate depth ' ' else []) ++ ['\'']
  | fresh, c :: cs =>
    if c = ' ' then ' ' :: singleBody depth fresh cs
    else if isBreak c then c :: singleBody depth true cs
    else (if fresh then List.replicate depth ' ' else []) ++
      (if c = '\'' then ['\'', '\''] else [c]) ++ singleBody depth false cs

/-- The letters of short escapes. -/
def escapeLetters : List (Char × Char) :=
  [('\x00', '0'), ('\x07', 'a'), ('\x08', 'b'), ('\t', 't'), ('\n', 'n'), ('\x0b', 'v'),
   ('\x0c', 'f'), ('\r', 'r'), ('\x1b', 'e'), ('"', '"'), ('\\', '\\'), ('\u0085', 'N'),
   ('\u2028', 'L'), ('\u2029', 'P')]

/-- `width` hexadecimal digits of a number, in upper case. -/
def hexDigits : Nat → Nat → List Char
  | 0, _ => []
  | width + 1, n => hexDigits width (n / 16) ++ [(Nat.digitChar (n % 16)).toUpper]

/-- One character between double quotes. -/
def doubleChar (c : Char) : List Char :=
  if isPrintable c && !isBreak c && c ≠ '"' && c ≠ '\\' then [c]
  else match escapeLetters.lookup c with
    | some letter => ['\\', letter]
    | none =>
      if c.toNat ≤ 0xFF then '\\' :: 'x' :: hexDigits 2 c.toNat
      else if c.toNat ≤ 0xFFFF then '\\' :: 'u' :: hexDigits 4 c.toNat
      else '\\' :: 'U' :: hexDigits 8 c.toNat

/-- The marks behind the bar of a literal block: an indentation if the text starts with
a gap, and what happens to the breaks at its end. -/
def literalMarks (cs : List Char) : List Char :=
  (if cs.head?.any fun c => isSpace c || isBreak c then ['2'] else []) ++
    match cs.reverse with
    | [] => ['-']
    | [c] => if isBreak c then ['+'] else ['-']
    | c :: d :: _ => if isBreak c then if isBreak d then ['+'] else [] else ['-']

/-- The lines of a literal block at column `depth`. -/
def literalBody (depth : Nat) : Bool → List Char → List Char
  | _, [] => []
  | fresh, c :: cs =>
    if isBreak c then c :: literalBody depth true cs
    else (if fresh then List.replicate depth ' ' else []) ++ c :: literalBody depth false cs

/-- A text; its lines after the first stand at column `depth`. -/
def scalarChars (depth : Nat) (s : String) : List Char :=
  match styleOf s with
  | .plain => s.toList
  | .single => '\'' :: singleBody depth false s.toList
  | .double => '"' :: s.toList.flatMap doubleChar ++ ['"']
  | .literal => '|' :: literalMarks s.toList ++ '\n' :: literalBody depth true s.toList

/-! ## Documents -/

/-- Ends a line, unless the text before it has ended it. -/
def endLine (cs : List Char) : List Char :=
  if cs.getLast?.any isBreak then cs else cs ++ ['\n']

/-- The start of a line at column `depth`. -/
def indent (depth : Nat) : List Char := List.replicate depth ' '

mutual

/-- What stands behind the colon of a field whose record stands at column `depth`. -/
def fieldChars (depth : Nat) : Tree → List Char
  | .text s => ' ' :: endLine (scalarChars (depth + 2) s)
  | .list [] => [' ', '[', ']', '\n']
  | .list (t :: ts) => '\n' :: itemsChars depth (t :: ts)
  | .record [] => [' ', '{', '}', '\n']
  | .record ((k, t) :: fs) => '\n' :: indent (depth + 2) ++ recordChars (depth + 2) ((k, t) :: fs)

/-- The items of a list whose dashes stand at column `depth`. -/
def itemsChars (depth : Nat) : List Tree → List Char
  | [] => []
  | t :: ts => indent depth ++ '-' :: ' ' :: itemChars depth t ++ itemsChars depth ts

/-- What stands behind a dash at column `depth`. -/
def itemChars (depth : Nat) : Tree → List Char
  | .text s => endLine (scalarChars (depth + 2) s)
  | .list [] => ['[', ']', '\n']
  | .list (t :: ts) => '-' :: ' ' :: itemChars (depth + 2) t ++ itemsChars (depth + 2) ts
  | .record [] => ['{', '}', '\n']
  | .record ((k, t) :: fs) => recordChars (depth + 2) ((k, t) :: fs)

/-- The fields of a record at column `depth`, of which the first stands in place. -/
def recordChars (depth : Nat) : List (String × Tree) → List Char
  | [] => []
  | (k, t) :: fs => k.toList ++ ':' :: fieldChars depth t ++ fieldsChars depth fs

/-- The fields of a record that stand on lines of their own. -/
def fieldsChars (depth : Nat) : List (String × Tree) → List Char
  | [] => []
  | (k, t) :: fs => indent depth ++ k.toList ++ ':' :: fieldChars depth t ++ fieldsChars depth fs

end

/-- A document on its own. -/
def documentChars : Tree → List Char
  | .text s => endLine (scalarChars 2 s)
  | .list [] => ['[', ']', '\n']
  | .list (t :: ts) => itemsChars 0 (t :: ts)
  | .record [] => ['{', '}', '\n']
  | .record ((k, t) :: fs) => recordChars 0 ((k, t) :: fs)

/-- A document as a string. -/
def print (t : Tree) : String := String.ofList (documentChars t)

end OptionAtlas.Yaml
