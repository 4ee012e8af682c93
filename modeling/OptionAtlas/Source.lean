import OptionAtlas.Text.Quoted

/-!
# Sources of records

A record is read the same way whatever text it comes from: its fields are texts,
optional texts, lists and records again. What differs between JSON and YAML is how
those are spelled. A `Source` is a monad that offers the four; a description of a
record over any source can be read from both.

Reading stops at the first fault in document order. A text that breaks the syntax
is `malformed`; one that is well formed up to there and holds the wrong thing is a
`Mismatch`.

## Main definitions

* `Found`, `Mismatch`, `Fault` — what can be wrong.
* `Field`, `Source` — how records are read.
-/

namespace OptionAtlas

/-- A value of the wrong kind, as it is named in messages. -/
inductive Found where
  /-- A whole number of at most 64 bits. -/
  | integer (n : Int)
  /-- A wider whole number, with the name of its width. -/
  | wideInteger (n : Int) (width : String)
  /-- A number with a fraction, an exponent or too many digits, as it is written. -/
  | float (written : String)
  | boolean (b : Bool)
  | text (s : String)
  /-- No value; the two formats have different words for it. -/
  | nothing (word : String)
  | sequence
  | mapping
deriving DecidableEq, Repr

/-- The name of a value in messages. -/
def Found.describe : Found → String
  | .integer n => "integer `" ++ toString n ++ "`"
  | .wideInteger n width => "integer `" ++ toString n ++ "` as " ++ width
  | .float written => "floating point `" ++ written ++ "`"
  | .boolean true => "boolean `true`"
  | .boolean false => "boolean `false`"
  | .text s => "string " ++ Text.quoted s
  | .nothing word => word
  | .sequence => "sequence"
  | .mapping => "map"

/-- A well-formed text that holds the wrong thing. -/
inductive Mismatch where
  /-- A required field is absent. -/
  | missing (field : String)
  /-- A field occurs twice. -/
  | duplicate (field : String)
  /-- A value of the wrong kind. -/
  | kind (found : Found) (expected : String)
  /-- A value of the right kind that its tag does not allow. -/
  | value (found : Found) (expected : String)
  /-- A record written as a list that ends too early. -/
  | length (found : Nat) (expected : String)
deriving DecidableEq, Repr

/-- The wording of a mismatch. -/
def Mismatch.message : Mismatch → String
  | .missing field => "missing field `" ++ field ++ "`"
  | .duplicate field => "duplicate field `" ++ field ++ "`"
  | .kind found expected => "invalid type: " ++ found.describe ++ ", expected " ++ expected
  | .value found expected => "invalid value: " ++ found.describe ++ ", expected " ++ expected
  | .length found expected => "invalid length " ++ toString found ++ ", expected " ++ expected

/-- A step from a value into it. -/
inductive Step where
  | field (name : String)
  | item (index : Nat)
  /-- A field whose name is not written in place. -/
  | unknown
deriving DecidableEq, Repr

/-- The text of a path; the outermost value has none. -/
def pathText : List Step → String
  | [] => ""
  | .item i :: ss => "[" ++ toString i ++ "]" ++ pathTail ss
  | .field name :: ss => name ++ pathTail ss
  | .unknown :: ss => "?" ++ pathTail ss
where
  /-- The text of the steps after the first. -/
  pathTail : List Step → String
    | [] => ""
    | .item i :: ss => "[" ++ toString i ++ "]" ++ pathTail ss
    | .field name :: ss => "." ++ name ++ pathTail ss
    | .unknown :: ss => ".?" ++ pathTail ss

/-- Why a text could not be read. -/
inductive Fault where
  /-- The text breaks the syntax of its format. -/
  | malformed
  /-- The value at `path` does not fit. -/
  | mismatch (path : List Step) (m : Mismatch)
  /-- The value does not fit, and the value around it is named in its stead. -/
  | inner (m : Mismatch)
deriving DecidableEq, Repr

namespace Fault

/-- The wording of a fault. -/
def message : Fault → String
  | .malformed => "malformed text"
  | .mismatch [] m => m.message
  | .mismatch path m => pathText path ++ ": " ++ m.message
  | .inner m => m.message

/-- The fault as seen from one step further out. -/
def under (s : Step) : Fault → Fault
  | .malformed => .malformed
  | .mismatch path m => .mismatch (s :: path) m
  | .inner m => .mismatch [] m

end Fault

/-- A field of a record that is read into `α`: `read` takes the record read so far
and puts the field's value into it. -/
structure Field (m : Type → Type) (α : Type) where
  name : String
  required : Bool
  read : α → m α

/-- A format that records can be read from. -/
class Source (m : Type → Type) where
  /-- A text. -/
  text : m String
  /-- A text that may be written as no value. -/
  optionalText : m (Option String)
  /-- A list. -/
  items {α : Type} : m α → m (List α)
  /-- A record with a title for messages, its value before any field is read, and its fields. -/
  record {α : Type} : String → α → List (Field m α) → m α

/-- The first required field that was not seen. -/
def firstMissing? {m : Type → Type} {α : Type} (seen : List String) (fields : List (Field m α)) :
    Option String :=
  (fields.find? fun f => f.required && !seen.contains f.name).map (·.name)

end OptionAtlas
