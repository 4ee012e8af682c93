import OptionAtlas.Registry

/-!
# Log entries

What happens on the way to an answer is logged, at two levels of detail. A program
shows the entries up to the level it was asked for.

## Main definitions

* `LogEntry` — a line of the log.
* `LogEntry.shown` — the entries up to a level of detail.
* `buildLog` — the entries for building a registry, up to its first defect.
-/

namespace OptionAtlas

/-- A line of the log. -/
structure LogEntry where
  /-- Whether the line is a detail. -/
  detail : Bool
  text : String
deriving DecidableEq, Repr

namespace LogEntry

/-- The line with its level. -/
def line (e : LogEntry) : String := (if e.detail then "DEBUG " else "INFO ") ++ e.text

/-- The entries that are shown: none, all but details, or all. -/
def shown (verbosity : Nat) (es : List LogEntry) : List LogEntry :=
  es.filter fun e => if e.detail then 2 ≤ verbosity else 1 ≤ verbosity

/-- A catalog was built. -/
def builtCatalog (c : Catalog) : LogEntry :=
  ⟨true, "Built flag catalog catalog=" ++ c.name ++ " flags=" ++ toString c.size⟩

/-- A registry was built. -/
def builtRegistry (r : Registry) : LogEntry :=
  ⟨false, "Built flag registry catalogs=" ++ toString r.catalogs.length ++ " commands="
    ++ toString r.commands.length⟩

end LogEntry

/-- The values before the first error. -/
def okPart {ε α : Type} : List (Except ε α) → List α
  | .ok a :: rs => a :: okPart rs
  | _ => []

/-- The entries for the commands of catalogs that were built. -/
def commandLog (cs : List Catalog) (rs : List Recipe) : List LogEntry :=
  match firstRepeat? [] (cs.map (·.name)) with
  | some _ => []
  | none =>
    (Recipe.assembled cs [] rs).map .builtCatalog ++
      match Registry.build cs rs with
      | .ok r => [.builtRegistry r]
      | .error _ => []

/-- The entries for building a registry from catalogs and recipes. -/
def buildLog (catalogs : List (Except Defect Catalog)) (rs : List Recipe) : List LogEntry :=
  (okPart catalogs).map .builtCatalog ++
    match catalogs.mapM id with
    | .ok cs => commandLog cs rs
    | .error _ => []

end OptionAtlas
