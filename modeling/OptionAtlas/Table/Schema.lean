import OptionAtlas.Table.Basic
import OptionAtlas.Tree

/-!
# The fields of a flag table

One description of the fields serves both formats. Lists and the short name of a
flag may be left out; the titles appear in messages about values of the wrong kind.

## Main definitions

* `Table.source` — reads a table from any source.
* `Table.tree` — a table as a document to be written.
-/

namespace OptionAtlas.Table

open OptionAtlas

variable {m : Type → Type} [Monad m] [Source m]

/-! ## Reading -/

/-- A text that has to be present. -/
def textField {α : Type} (name : String) (put : α → String → α) : Field m α :=
  ⟨name, true, fun a => do return put a (← Source.text)⟩

/-- A list that is empty when it is left out. -/
def listField {α β : Type} (name : String) (item : m β) (put : α → List β → α) : Field m α :=
  ⟨name, false, fun a => do return put a (← Source.items item)⟩

/-- A flag: a key, a long name and an optional short one. -/
def declarationSource : m Catalog.Declaration :=
  Source.record "FlagDef" ⟨"", "", none⟩
    [textField "key" fun d s => { d with key := s },
     textField "long" fun d s => { d with long := s },
     ⟨"short", false, fun d => do return { d with short := ← Source.optionalText }⟩]

/-- A catalog: a name and its flags. -/
def sectionSource : m Section :=
  Source.record "CatalogDef" ⟨"", []⟩
    [textField "name" fun c s => { c with name := s },
     listField "flags" declarationSource fun c ds => { c with flags := ds }]

/-- A picked flag: a catalog and a key. -/
def pickSource : m Pick :=
  Source.record "FlagRef" ⟨"", ""⟩
    [textField "catalog" fun p s => { p with catalog := s },
     textField "key" fun p s => { p with key := s }]

/-- A command: a name, whole catalogs and picked flags. -/
def recipeSource : m Recipe :=
  Source.record "CommandFlags" ⟨"", [], []⟩
    [textField "name" fun r s => { r with name := s },
     listField "catalogs" Source.text fun r cs => { r with catalogs := cs },
     listField "flags" pickSource fun r ps => { r with picks := ps }]

/-- A table: a version, catalogs and commands. -/
def source : m Table :=
  Source.record "FlagTable" ⟨"", [], []⟩
    [textField "version" fun t s => { t with version := s },
     listField "catalogs" sectionSource fun t cs => { t with catalogs := cs },
     listField "commands" recipeSource fun t rs => { t with commands := rs }]

/-! ## Writing -/

/-- A flag as a record; a short name that is absent is left out. -/
def declarationTree (d : Catalog.Declaration) : Tree :=
  .record ([("key", .text d.key), ("long", .text d.long)] ++ Tree.optional "short" d.short)

/-- A catalog as a record. -/
def sectionTree (c : Section) : Tree :=
  .record [("name", .text c.name), ("flags", .list (c.flags.map declarationTree))]

/-- A picked flag as a record. -/
def pickTree (p : Pick) : Tree :=
  .record [("catalog", .text p.catalog), ("key", .text p.key)]

/-- A command as a record. -/
def recipeTree (r : Recipe) : Tree :=
  .record [("name", .text r.name), ("catalogs", Tree.texts r.catalogs),
    ("flags", .list (r.picks.map pickTree))]

/-- A table as a record. -/
def tree (t : Table) : Tree :=
  .record [("version", .text t.version), ("catalogs", .list (t.catalogs.map sectionTree)),
    ("commands", .list (t.commands.map recipeTree))]

end OptionAtlas.Table
