import OptionAtlas.CommandLine
import OptionAtlas.Listing
import OptionAtlas.Log
import OptionAtlas.Standard
import OptionAtlas.Store

/-!
# The program

The program answers one request about the standard registry or about the registry
of a table file. The answer is text and, if something is wrong, a complaint.

## Main definitions

* `Answer` — the text, the complaint and the log.
* `openRegistry` — the registry that a request is about.
* `Invocation.answer` — the answer to a request.
-/

namespace OptionAtlas

/-- The answer to a request. -/
structure Answer where
  output : String
  /-- What is wrong, if something is. -/
  complaint : Option String
  log : List LogEntry

namespace Answer

/-- An answer of text alone. -/
def text (s : String) : Answer := ⟨s, none, []⟩

/-- A complaint alone. -/
def failure (s : String) : Answer := ⟨"", some s, []⟩

/-- An answer that takes note of what was logged before it. -/
def after (log : List LogEntry) (a : Answer) : Answer := { a with log := log ++ a.log }

end Answer

/-! ## Registries -/

/-- The standard registry, or a complaint, and what is logged. -/
def standardRegistry : Except String Registry × List LogEntry :=
  (match Standard.registry with
    | .ok r => .ok r
    | .error d => .error ("Built-in flag tables are invalid: " ++ d.message),
   buildLog Standard.built Standard.recipes)

/-- What is logged while a table becomes a registry. -/
def tableLog (path : String) (t : Table) : List LogEntry :=
  ⟨false, "Loaded flag table path=" ++ path ++ " catalogs=" ++ toString t.catalogs.length
    ++ " commands=" ++ toString t.commands.length⟩ ::
  if Table.supported t.version then
    buildLog (t.catalogs.map fun s => Catalog.declare s.name s.flags) t.commands
  else []

/-- The registry of a loaded table, or a complaint, and what is logged. -/
def tableRegistry (path : String) (loaded : Except Store.Failure Table) :
    Except String Registry × List LogEntry :=
  let complain (message : String) : Except String Registry :=
    .error ("Failed to load flag table '" ++ path ++ "': " ++ message)
  match loaded with
  | .error e => (complain e.message, [])
  | .ok t =>
    (match t.toRegistry with
      | .ok r => .ok r
      | .error e => complain e.message,
     tableLog path t)

variable {m : Type → Type} [Monad m] [Disk m]

/-- The registry that a request is about. -/
def openRegistry : Option String → m (Except String Registry × List LogEntry)
  | none => pure standardRegistry
  | some path => do
    let (r, log) := tableRegistry path (← Store.load path)
    pure (r, ⟨true, "Using flag table path=" ++ path⟩ :: log)

/-! ## Requests -/

/-- A catalog in a style. -/
def showCatalog (c : Catalog) : Style → String
  | .table => c.listing
  | .json => Json.pretty c.tree ++ "\n"
  | .yaml => Yaml.print c.tree

/-- The answer that shows a catalog that was looked up. -/
def answerShow (found : Except Defect Catalog) (style : Style) : Answer :=
  match found with
  | .ok c => .text (showCatalog c style)
  | .error d => .failure d.message

/-- Classified tokens in a style. -/
def showReports (rs : List TokenReport) : Style → String
  | .table => "".intercalate (rs.map TokenReport.line)
  | .json => Json.pretty (.list (rs.map TokenReport.tree)) ++ "\n"
  | .yaml => Yaml.print (.list (rs.map TokenReport.tree))

/-- The complaint about tokens that were reported as unknown options. -/
def unknownComplaint (command : String) : List String → Option String
  | [] => none
  | ts => some (toString ts.length ++ " unknown option(s) for '" ++ command ++ "': "
      ++ ", ".intercalate ts)

/-- The answer that classifies tokens. -/
def answerResolve (r : Registry) (command : String) (style : Style) (tokens : List String) :
    Answer :=
  match r.command command with
  | .error d => .failure d.message
  | .ok flags =>
    let reports := classify flags tokens
    ⟨showReports reports style, unknownComplaint command (unknownOptions reports), []⟩

/-- The answer for a registry that could be built. -/
def answerCheck (r : Registry) : Answer :=
  .text ("Flag registry is consistent: " ++ toString r.catalogs.length ++ " catalog(s), "
    ++ toString r.commands.length ++ " command(s), "
    ++ toString (r.catalogs.flatMap (·.entries)).length ++ " flag(s).\n")

/-- The answer for a table that was written to a file. -/
def answerSaved (r : Registry) (output : String) (saved : Except Store.Failure Unit) : Answer :=
  match saved with
  | .error e => .failure ("Failed to write '" ++ output ++ "': " ++ e.message)
  | .ok () =>
    ⟨"Exported " ++ toString r.catalogs.length ++ " catalog(s) and "
      ++ toString r.commands.length ++ " command(s) to '" ++ output ++ "'.\n", none,
     [⟨true, "Saved flag table path=" ++ output⟩]⟩

/-- Writes the table of a registry to a file; the folders around it are made. -/
def answerSave (r : Registry) (output : String) : m Answer := do
  let parent := (Path.parent? output).getD ""
  match ← Disk.makeFolders parent with
  | .error e =>
    pure (.failure ("Failed to create output directory '" ++ parent ++ "': " ++ e.message))
  | .ok () => pure (answerSaved r output (← Store.save output (.ofRegistry r)))

/-- The answer to a request about a registry. -/
def Request.answer (r : Registry) : Request → m Answer
  | .overview => pure (.text r.overview)
  | .showCatalog name style => pure (answerShow (r.catalog name) style)
  | .showCommand name style => pure (answerShow (r.command name) style)
  | .resolve command style tokens => pure (answerResolve r command style tokens)
  | .check => pure (answerCheck r)
  | .save output => answerSave r output

/-- The answer to a request, with the part of the log that it asks for. -/
def Invocation.answer (i : Invocation) : m Answer := do
  let (r, log) ← openRegistry i.table
  let a ← match r with
    | .ok r => i.request.answer r
    | .error message => pure (.failure message)
  let a := a.after log
  pure { a with log := LogEntry.shown i.verbosity a.log }

end OptionAtlas
