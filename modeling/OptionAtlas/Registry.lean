import OptionAtlas.Catalog

/-!
# Registries

A registry holds catalogs and, for each command, a recipe: the catalogs that the
command takes whole and the single flags it picks from others. The flag set of a
command is the catalog assembled from its recipe. A `Registry` carries the proof
that every recipe could be assembled, so a command that exists has its flags.

## Main definitions

* `Pick`, `Recipe` — what a command takes.
* `Recipe.assemble` — the flag set of one command.
* `Registry`, `Registry.build` — catalogs and recipes that fit together.
* `Registry.catalog`, `Registry.command`, `Registry.resolve` — look-up by name.
-/

namespace OptionAtlas

/-- A reference to one flag: a catalog and a key in it. -/
structure Pick where
  catalog : String
  key : String
deriving DecidableEq, Repr

/-- What a command takes: whole catalogs first, then single flags. -/
structure Recipe where
  name : String
  catalogs : List String
  picks : List Pick
deriving DecidableEq, Repr

/-- The catalog of this name. -/
def findCatalog (cs : List Catalog) (name : String) : Except Defect Catalog :=
  match cs.find? (·.name == name) with
  | some c => .ok c
  | none => .error (.unknownCatalog name)

/-- The entry that a pick refers to. -/
def Pick.entry (cs : List Catalog) (p : Pick) : Except Defect Entry := do
  (← findCatalog cs p.catalog).entry p.key

namespace Recipe

/-- The entries that a recipe takes, whole catalogs first. -/
def entries (cs : List Catalog) (r : Recipe) : Except Defect (List Entry) := do
  let whole ← r.catalogs.mapM (findCatalog cs)
  let picked ← r.picks.mapM (Pick.entry cs)
  pure (whole.flatMap (·.entries) ++ picked)

/-- The flag set of a command, given the names of the commands before it. -/
def assemble (cs : List Catalog) (earlier : List String) (r : Recipe) :
    Except Defect Catalog := do
  if r.name ∈ earlier then throw (.repeatedCommand r.name)
  Catalog.ofEntries r.name (← r.entries cs)

/-- The flag sets of commands that follow those named in `earlier`. -/
def assembleAll (cs : List Catalog) (earlier : List String) :
    List Recipe → Except Defect (List Catalog)
  | [] => .ok []
  | r :: rs => do
    let c ← r.assemble cs earlier
    let rest ← assembleAll cs (earlier ++ [r.name]) rs
    pure (c :: rest)

/-- The flag sets that are assembled before the first defect. -/
def assembled (cs : List Catalog) (earlier : List String) : List Recipe → List Catalog
  | [] => []
  | r :: rs =>
    match r.assemble cs earlier with
    | .ok c => c :: assembled cs (earlier ++ [r.name]) rs
    | .error _ => []

end Recipe

/-- The first name that occurs a second time. -/
def firstRepeat? (seen : List String) : List String → Option String
  | [] => none
  | n :: ns => if n ∈ seen then some n else firstRepeat? (seen ++ [n]) ns

/-- The flag sets of all commands over these catalogs, or the first defect: a
repeated catalog, then the defects of the recipes in their order. -/
def assembleCommands (cs : List Catalog) (rs : List Recipe) : Except Defect (List Catalog) :=
  match firstRepeat? [] (cs.map (·.name)) with
  | some n => .error (.repeatedCatalog n)
  | none => Recipe.assembleAll cs [] rs

/-- Catalogs, recipes and the flag sets assembled from them. -/
structure Registry where
  catalogs : List Catalog
  recipes : List Recipe
  commands : List Catalog
  assembled : assembleCommands catalogs recipes = .ok commands

namespace Registry

/-- The registry of these catalogs and recipes, or their first defect. -/
def build (catalogs : List Catalog) (recipes : List Recipe) : Except Defect Registry :=
  match h : assembleCommands catalogs recipes with
  | .ok commands => .ok ⟨catalogs, recipes, commands, h⟩
  | .error d => .error d

/-- The catalog of this name. -/
def catalog (r : Registry) (name : String) : Except Defect Catalog :=
  findCatalog r.catalogs name

/-- The flag set of the command of this name. -/
def command (r : Registry) (name : String) : Except Defect Catalog :=
  match r.commands.find? (·.name == name) with
  | some c => .ok c
  | none => .error (.unknownCommand name)

/-- The flag of a command that accepts `token`. -/
def resolve (r : Registry) (command token : String) : Except Defect (Option Entry) := do
  pure ((← r.command command).resolve token)

end Registry

end OptionAtlas
