import OptionAtlas.Registry

/-!
# Building argument lists

A program that calls another one names flags by their keys; the catalog supplies
the long names. The list is drafted call by call. A key that the catalog lacks
spoils the draft: the first such key is what the finished draft reports.

## Main definitions

* `Call` — one step of building an argument list.
* `Draft` — the arguments so far and the first defect.
* `Draft.ofCatalog`, `Draft.ofCommand`, `Draft.add`, `Draft.finish`.
-/

namespace OptionAtlas

/-- One step of building an argument list. -/
inductive Call where
  /-- The long name of a key. -/
  | flag (key : String)
  /-- The long name of a key, if enabled. -/
  | flagIf (key : String) (enabled : Bool)
  /-- The long name of a key and a value. -/
  | option (key value : String)
  /-- The long name of a key and a value, if there is a value. -/
  | optionIfSome (key : String) (value : Option String)
  /-- An argument as it is. -/
  | positional (arg : String)
deriving DecidableEq, Repr

/-- An argument list under construction. -/
structure Draft where
  flags : Catalog
  args : List String
  defect : Option Defect

namespace Draft

/-- An empty list over the flags of a catalog. -/
def ofCatalog (flags : Catalog) : Draft := ⟨flags, [], none⟩

/-- A list over the flags of a command that starts with the words of its name. -/
def ofCommand (r : Registry) (command : String) : Except Defect Draft := do
  pure ⟨← r.command command, Text.wordsOf command, none⟩

/-- Appends the long name of `key` and then `more`. Once spoiled, the draft stays
as it is; a key the catalog lacks spoils it. -/
def addFlag (d : Draft) (key : String) (more : List String) : Draft :=
  match d.defect with
  | some _ => d
  | none =>
    match d.flags.lookup key with
    | .ok f => { d with args := d.args ++ f.long :: more }
    | .error e => { d with defect := some e }

/-- The effect of one call. -/
def add (d : Draft) : Call → Draft
  | .flag key => d.addFlag key []
  | .flagIf key enabled => if enabled then d.addFlag key [] else d
  | .option key value => d.addFlag key [value]
  | .optionIfSome key (some value) => d.addFlag key [value]
  | .optionIfSome _ none => d
  | .positional arg => { d with args := d.args ++ [arg] }

/-- The effect of several calls in order. -/
def addAll (d : Draft) (calls : List Call) : Draft := calls.foldl add d

/-- The finished argument list, or the first defect. -/
def finish (d : Draft) : Except Defect (List String) :=
  match d.defect with
  | some e => .error e
  | none => .ok d.args

end Draft

end OptionAtlas
