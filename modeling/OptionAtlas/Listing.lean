import OptionAtlas.Text.Column
import OptionAtlas.Token
import OptionAtlas.Tree

/-!
# Listings of flags and tokens

Catalogs and classified tokens are shown as documents, and as text with columns.

## Main definitions

* `Catalog.tree`, `Catalog.listing` — a catalog.
* `TokenReport.tree`, `TokenReport.line` — a classified token.
* `Registry.overview` — the catalogs and commands of a registry.
-/

namespace OptionAtlas

open Text

/-! ## Catalogs -/

/-- The names of a flag as fields; a short name that is absent is left out. -/
def Flag.fields (f : Flag) : List (String × Tree) :=
  ("long", .text f.long) :: Tree.optional "short" f.short

/-- An entry as a record. -/
def Entry.tree (e : Entry) : Tree :=
  .record ([("key", .text e.key), ("group", .text e.group)] ++ e.flag.fields)

/-- A catalog as a record. -/
def Catalog.tree (c : Catalog) : Tree :=
  .record [("name", .text c.name), ("flags", .list (c.entries.map Entry.tree))]

/-- The width of the first column: no usage has more characters, since none has more bytes. -/
def Catalog.usageWidth (c : Catalog) : Nat :=
  (c.entries.map (·.flag.usage.utf8ByteSize)).foldl max 0

/-- The row of an entry: its usage, its key and its group. -/
def Entry.row (width : Nat) (e : Entry) : String :=
  column width e.flag.usage ++ "  " ++ column 28 e.key ++ " " ++ e.group ++ "\n"

/-- A catalog as text, one row for each entry. -/
def Catalog.listing (c : Catalog) : String :=
  "".intercalate (c.entries.map (Entry.row c.usageWidth))

/-! ## Tokens -/

/-- The name of a class. -/
def TokenClass.name : TokenClass → String
  | .flag _ _ _ => "flag"
  | .unknownOption => "unknown_option"
  | .positional => "positional"
  | .terminator => "terminator"

/-- The fields of a class. -/
def TokenClass.fields : TokenClass → List (String × Tree)
  | .flag key group value =>
    [("key", .text key), ("group", .text group)] ++ Tree.optional "value" value
  | _ => []

/-- A classified token as a record. -/
def TokenReport.tree (r : TokenReport) : Tree :=
  .record ([("token", .text r.token), ("kind", .text r.kind.name)] ++ r.kind.fields)

/-- What a class is called in text. -/
def TokenClass.description : TokenClass → String
  | .flag key group (some value) => key ++ " (" ++ group ++ ") = " ++ value
  | .flag key group none => key ++ " (" ++ group ++ ")"
  | .unknownOption => "unknown option"
  | .positional => "positional"
  | .terminator => "end of options"

/-- A classified token as a line of text. -/
def TokenReport.line (r : TokenReport) : String :=
  column 30 r.token ++ " " ++ r.kind.description ++ "\n"

/-! ## Registries -/

/-- The line of a catalog. -/
def Catalog.overviewLine (c : Catalog) : String :=
  "  " ++ column 20 c.name ++ " " ++ toString c.size ++ " flag(s)\n"

/-- What a recipe takes: catalogs, and flags as catalog and key. -/
def Recipe.sources (r : Recipe) : List String :=
  r.catalogs ++ r.picks.map fun p => p.catalog ++ "." ++ p.key

/-- The line of a command with its flag set. -/
def Recipe.overviewLine (r : Recipe) (flags : Catalog) : String :=
  "  " ++ column 20 r.name ++ " " ++ toString flags.size ++ " flag(s): "
    ++ ", ".intercalate r.sources ++ "\n"

/-- All catalogs and commands as text. -/
def Registry.overview (r : Registry) : String :=
  "Catalogs:\n" ++ "".intercalate (r.catalogs.map Catalog.overviewLine) ++ "Commands:\n"
    ++ "".intercalate (List.zipWith Recipe.overviewLine r.recipes r.commands)

end OptionAtlas
