import OptionAtlas.Registry
import OptionAtlas.Source

/-!
# Flag tables

A flag table describes a registry as plain data: for each catalog its declarations,
for each command its recipe, and the version of the format. A table is read as a
registry, with all its checks, and every registry can be described by a table.

## Main definitions

* `Table`, `Table.Section` — a table and one of its catalogs.
* `Table.toRegistry`, `Table.ofRegistry` — between tables and registries.
* `Table.Failure` — what can be wrong with a table.
-/

namespace OptionAtlas

/-- The declarations of one catalog. -/
structure Table.Section where
  name : String
  flags : List Catalog.Declaration
deriving DecidableEq, Repr

/-- A description of a registry. -/
structure Table where
  version : String
  catalogs : List Table.Section
  commands : List Recipe
deriving DecidableEq, Repr

namespace Table

/-- What is wrong with the contents of a table. -/
inductive Failure where
  /-- A version of the format that is not known. -/
  | unsupportedVersion (version : String)
  /-- A defect of the registry it describes. -/
  | defect (d : Defect)
deriving DecidableEq, Repr

/-- The wording of a failure. -/
def Failure.message : Failure → String
  | .unsupportedVersion version => "unsupported flag table version: " ++ version
  | .defect d => "invalid flag table: " ++ d.message

/-- Whether a version is `1` or starts with `1.`. -/
def supported (version : String) : Bool := version.toList.takeWhile (· != '.') == ['1']

/-- The catalogs of a table. -/
def builtCatalogs (t : Table) : Except Defect (List Catalog) :=
  t.catalogs.mapM fun s => Catalog.declare s.name s.flags

/-- The registry that a table describes. -/
def toRegistry (t : Table) : Except Failure Registry :=
  if supported t.version then
    match t.builtCatalogs >>= fun cs => Registry.build cs t.commands with
    | .ok r => .ok r
    | .error d => .error (.defect d)
  else .error (.unsupportedVersion t.version)

/-- The version of tables that describe a registry. -/
def currentVersion : String := "1.0"

/-- The declaration of an entry. -/
def declarationOf (e : Entry) : Catalog.Declaration := ⟨e.key, e.flag.long, e.flag.short⟩

/-- The section of a catalog. -/
def sectionOf (c : Catalog) : Section := ⟨c.name, c.entries.map declarationOf⟩

/-- The table that describes a registry. -/
def ofRegistry (r : Registry) : Table :=
  ⟨currentVersion, r.catalogs.map sectionOf, r.recipes⟩

@[simp] theorem version_ofRegistry (r : Registry) : (ofRegistry r).version = "1.0" := rfl

@[simp] theorem commands_ofRegistry (r : Registry) : (ofRegistry r).commands = r.recipes := rfl

end Table

end OptionAtlas
