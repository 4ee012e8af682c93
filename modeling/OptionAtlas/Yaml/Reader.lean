import OptionAtlas.Yaml.Document
import OptionAtlas.Yaml.Meaning

/-!
# Reading YAML

A text is any scalar, whatever it would mean without quotes. An optional text is
absent if it is a plain word for no value. A list or a record that is not written is
empty. Fields that the record does not have are skipped. An alias is read as the
node it stands for; a document may follow a hundred aliases for each of its parts.

## Main definitions

* `Yaml.Reader` — the source of records.
* `Yaml.readDocument` — reads a whole text.
-/

namespace OptionAtlas.Yaml

/-- What a reader knows about the document around a node. -/
structure Context where
  targets : List (Nat × Node)
  /-- How many aliases may be followed. -/
  limit : Nat

/-- Reads a node, counting the aliases that were followed. -/
abbrev Reader := ReaderT Node (ReaderT Context (StateT Nat (Except Fault)))

namespace Reader

/-- What a node stands for: the node of an alias, and a node without its anchor. -/
def subject : Reader Node := do
  match ← read with
  | .alias id =>
    let followed ← getModify (· + 1)
    let context ← readThe Context
    if context.limit ≤ followed then throw .malformed
    match Node.target? context.targets id with
    | some n => pure n
    | none => throw .malformed
  | .anchored _ n => pure n
  | n => pure n

/-! ## Values of the wrong kind -/

/-- The tags of values that have a kind. -/
def kindTag (name : String) : String := "tag:yaml.org,2002:" ++ name

/-- What a scalar means as it is tagged; a kind that its tag names and that it is not
is an error. -/
def scalarMeaning (tag : Option String) (plain : Bool) (s : String) : Except Mismatch Found :=
  match tag with
  | none => .ok (if plain then meaning s else .text s)
  | some t =>
    if t = kindTag "bool" then orValue "a boolean" ((boolean? s).map .boolean)
    else if t = kindTag "int" then orValue "an integer" (integer? s.toList)
    else if t = kindTag "float" then orValue "a float" ((float? s.toList).map .float)
    else if t = kindTag "null" then
      orValue "null" (if isNothing s then some (.nothing "unit value") else none)
    else .ok (if t.toList.head? = some '!' && plain then meaning s else .text s)
where
  /-- The meaning, or an error that names the kind. -/
  orValue (expected : String) : Option Found → Except Mismatch Found
    | some f => .ok f
    | none => .error (.value (.text s) expected)

/-- The fault of a node that does not fit. -/
def wrongKind (expected : String) : Node → Fault
  | .scalar tag plain s =>
    match scalarMeaning tag plain s with
    | .ok found => .mismatch [] (.kind found expected)
    | .error m => .mismatch [] m
  | .sequence _ => .mismatch [] (.kind .sequence expected)
  | .mapping _ => .mismatch [] (.kind .mapping expected)
  | _ => .malformed

/-! ## The four kinds of values -/

/-- Runs a reader on a part of the node, one step further in. -/
def into {α : Type} (step : Step) (n : Node) (r : Reader α) : Reader α := fun _ context followed =>
  match r n context followed with
  | .ok a => .ok a
  | .error f => .error (f.under step)

/-- A text. -/
def text (expected : String) : Reader String := do
  match ← subject with
  | .scalar _ _ s => pure s
  | n => throw (wrongKind expected n)

/-- Whether an optional value is absent. -/
def isAbsent (tag : Option String) (plain : Bool) (s : String) : Except Mismatch Bool :=
  if !plain then .ok false
  else match tag with
    | none => .ok (s = "" || isNothing s)
    | some t =>
      if t = kindTag "null" then
        if isNothing s then .ok true else .error (.value (.text s) "null")
      else .ok false

/-- A text that may be absent. A tag that does not allow it is a fault of the record
around it. -/
def optionalText : Reader (Option String) := do
  match ← subject with
  | .scalar tag plain s =>
    match isAbsent tag plain s with
    | .ok true => pure none
    | .ok false => pure (some s)
    | .error m => throw (.inner m)
  | n => throw (wrongKind "a string" n)

/-- Whether a node is a value that is not written. -/
def unwritten : Node → Bool
  | .scalar _ plain s => plain && s = ""
  | _ => false

/-- The items of a list, the first of them with number `i`. -/
def itemsFrom {α : Type} (r : Reader α) (i : Nat) : List Node → Reader (List α)
  | [] => pure []
  | n :: ns => do
    let a ← into (.item i) n r
    let rest ← itemsFrom r (i + 1) ns
    pure (a :: rest)

/-- A list. -/
def items {α : Type} (r : Reader α) : Reader (List α) := do
  match ← subject with
  | .sequence ns => itemsFrom r 0 ns
  | n => if unwritten n then pure [] else throw (wrongKind "a sequence" n)

/-- The name of a field, and the step to its value. -/
def fieldName (key : Node) : Reader (String × Step) := do
  let name ← fun _ => text "field identifier" key
  match key with
  | .scalar _ _ s | .anchored _ (.scalar _ _ s) => pure (name, .field s)
  | _ => pure (name, .unknown)

/-- Passes over a node. -/
def skip (n : Node) : Reader Unit := if n.complete then pure () else throw .malformed

/-- The fields of a record read into `a`; `seen` are the names met so far. -/
def fieldsFrom {α : Type} (fields : List (Field Reader α)) (seen : List String) (a : α) :
    List (Node × Node) → Reader (α × List String)
  | [] => pure (a, seen)
  | (key, value) :: pairs => do
    let (name, step) ← fieldName key
    match fields.find? (·.name == name) with
    | some f =>
      if name ∈ seen then throw (.mismatch [] (.duplicate name))
      let a ← into step value (f.read a)
      fieldsFrom fields (name :: seen) a pairs
    | none =>
      skip value
      fieldsFrom fields (name :: seen) a pairs

/-- The pairs of a record. -/
def pairsOf (title : String) (n : Node) : Except Fault (List (Node × Node)) :=
  match n with
  | .mapping ps => .ok ps
  | n => if unwritten n then .ok [] else .error (wrongKind ("struct " ++ title) n)

/-- A record. -/
def record {α : Type} (title : String) (empty : α) (fields : List (Field Reader α)) :
    Reader α := do
  match pairsOf title (← subject) with
  | .error f => throw f
  | .ok pairs =>
    let (a, seen) ← fieldsFrom fields [] empty pairs
    match firstMissing? seen fields with
    | some name => throw (.mismatch [] (.missing name))
    | none => pure a

end Reader

instance : Source Reader where
  text := Reader.text "a string"
  optionalText := Reader.optionalText
  items := Reader.items
  record := Reader.record

/-- Reads the first document of a text; no other one may follow. -/
def readIntake {α : Type} (r : Reader α) (t : Intake) : Except Fault α := do
  let d := Document.ofIntake t
  let (a, _) ← r d.root ⟨d.root.targets, d.root.size * 100⟩ 0
  if d.sole then pure a else throw .malformed

/-- Reads a whole text. -/
def readDocument {α : Type} (r : Reader α) (s : List Text.Symbol) : Except Fault α :=
  readIntake r (Intake.ofSymbols s)

end OptionAtlas.Yaml
