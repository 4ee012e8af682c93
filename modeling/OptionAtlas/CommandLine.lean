import OptionAtlas.Token

/-!
# The command line

A command line names one of five commands. Two options may stand before the name of
the command as well as behind it; the others belong to one command. An option that
takes a value has it behind an equals sign or as the next argument, and stands at
most once on each side. Two dashes end the options.

The command that classifies tokens takes what is no option of its own for the first
token, even if it starts with a dash; everything behind the first token is a token.

## Main definitions

* `Setting`, `Given` — the options, and what one side of a command line sets.
* `Side.read` — reads one side.
* `Request`, `Invocation` — what a command line asks for.
* `Invocation.ofArguments` — reads a command line.
-/

namespace OptionAtlas

/-- How an answer is written. -/
inductive Style where
  | table
  | json
  | yaml
deriving DecidableEq, Repr

/-- The style of a name. -/
def Style.ofName? (name : String) : Option Style :=
  if name = "table" then some .table
  else if name = "json" then some .json
  else if name = "yaml" then some .yaml
  else none

/-- What a command line asks for. -/
inductive Request where
  /-- An overview of catalogs and commands. -/
  | overview
  | showCatalog (name : String) (style : Style)
  | showCommand (name : String) (style : Style)
  /-- The classes of tokens. -/
  | resolve (command : String) (style : Style) (tokens : List String)
  /-- Whether the registry is consistent. -/
  | check
  /-- A table file. -/
  | save (output : String)
deriving DecidableEq, Repr

/-- A request, the table it is about and how much is logged. -/
structure Invocation where
  table : Option String
  verbosity : Nat
  request : Request
deriving DecidableEq, Repr

/-! ## Options -/

/-- An option that takes a value. -/
inductive Setting where
  | table
  | catalog
  | command
  | format
  | output
deriving DecidableEq, Repr

/-- The name of an option. -/
def Setting.spelling : Setting → String
  | .table => "--table"
  | .catalog => "--catalog"
  | .command => "--command"
  | .format => "--format"
  | .output => "--output"

/-- The values that an option takes. A path is not empty. -/
def Setting.admits : Setting → String → Bool
  | .table, v => v ≠ ""
  | .output, v => v ≠ ""
  | .format, v => (Style.ofName? v).isSome
  | .catalog, _ => true
  | .command, _ => true

/-- What one side of a command line sets. -/
structure Given where
  values : List (Setting × String)
  verbosity : Nat

namespace Given

/-- Nothing. -/
def empty : Given := ⟨[], 0⟩

/-- The value of an option. -/
def value? (g : Given) (s : Setting) : Option String := g.values.lookup s

/-- One more option; `none` if it was there already or does not take the value. -/
def add (s : Setting) (v : String) (g : Given) : Option Given :=
  if (g.value? s).isSome || !s.admits v then none
  else some { g with values := g.values ++ [(s, v)] }

/-- More details in the log, `n` times. -/
def louder (n : Nat) (g : Given) : Given := { g with verbosity := g.verbosity + n }

end Given

/-- What may stand on one side of a command line. -/
structure Side where
  settings : List Setting
  /-- Whether an argument that starts with a dash and is no option ends the options. -/
  looseDashes : Bool

namespace Side

/-- The option of a name. -/
def setting? (side : Side) (name : String) : Option Setting :=
  side.settings.find? (·.spelling = name)

/-- The parts of an argument around its first equals sign. -/
def split (arg : String) : String × Option String :=
  let (name, value) := splitEquals arg.toList
  (String.ofList name, value.map String.ofList)

/-- The options that take no value, by their long names. -/
def isSwitch (name : String) : Bool := name = "--verbose" || name = "--help"

/-- The kinds of arguments. -/
inductive Argument where
  /-- The mark that ends the options. -/
  | mark
  | setting (s : Setting) (attached : Option String)
  /-- Calls for more details in the log. -/
  | louder (n : Nat)
  /-- An option that is not known here, or is not used like this. -/
  | refused
  /-- Something that is no option but starts with a dash. -/
  | loose
  | word

/-- The kind of an argument that starts with two dashes and is longer. -/
def longArgument (side : Side) (arg : String) : Argument :=
  let (name, attached) := split arg
  match side.setting? name with
  | some s => .setting s attached
  | none =>
    if name = "--verbose" && attached.isNone then .louder 1
    else if isSwitch name then .refused
    else if side.looseDashes then .loose
    else .refused

/-- The kind of an argument that starts with one dash and is longer. -/
def shortArgument (side : Side) (letters : List Char) : Argument :=
  if letters.all (· = 'v') then .louder letters.length
  else if side.looseDashes && letters.any fun c => c ≠ 'v' && c ≠ 'h' then .loose
  else .refused

/-- The kind of an argument. -/
def argument (side : Side) (arg : String) : Argument :=
  match arg.toList with
  | ['-', '-'] => .mark
  | '-' :: '-' :: _ => side.longArgument arg
  | '-' :: c :: cs => side.shortArgument (c :: cs)
  | _ => .word

/-- Whether an argument is the value of the option before it. -/
def isValue (side : Side) (arg : String) : Bool :=
  match side.argument arg with
  | .loose | .word => true
  | _ => false

/-- The options at the front of the arguments, whether a mark ended them, and the
arguments behind them. -/
def read (side : Side) : List String → Given → Option (Given × Bool × List String)
  | [], g => some (g, false, [])
  | arg :: args, g =>
    match side.argument arg with
    | .mark => some (g, true, args)
    | .louder n => read side args (g.louder n)
    | .refused => none
    | .loose => some (g, false, arg :: args)
    | .word => some (g, false, arg :: args)
    | .setting s (some v) => (g.add s v).bind (read side args)
    | .setting s none =>
      match args with
      | v :: args => if side.isValue v then (g.add s v).bind (read side args) else none
      | [] => none

end Side

/-! ## Commands -/

/-- The names of the commands. -/
inductive CommandName where
  | overview
  | show
  | resolve
  | check
  | save
deriving DecidableEq, Repr

namespace CommandName

/-- The command of a name. -/
def ofName? (name : String) : Option CommandName :=
  if name = "catalogs" then some .overview
  else if name = "show" then some .show
  else if name = "resolve" then some .resolve
  else if name = "check" then some .check
  else if name = "export" then some .save
  else none

/-- What may stand behind the name of a command. -/
def side : CommandName → Side
  | .overview => ⟨[.table], false⟩
  | .show => ⟨[.table, .catalog, .command, .format], false⟩
  | .resolve => ⟨[.table, .command, .format], true⟩
  | .check => ⟨[.table], false⟩
  | .save => ⟨[.table, .output], false⟩

/-- The style that was set; tables by default. -/
def style (g : Given) : Style := ((g.value? .format).bind Style.ofName?).getD .table

/-- The request of a command with its options and words. -/
def request? (g : Given) : CommandName → List String → Option Request
  | .overview, [] => some .overview
  | .check, [] => some .check
  | .save, [] => (g.value? .output).map .save
  | .show, [] =>
    match g.value? .catalog, g.value? .command with
    | some name, none => some (.showCatalog name (style g))
    | none, some name => some (.showCommand name (style g))
    | _, _ => none
  | .resolve, t :: ts => (g.value? .command).map (.resolve · (style g) (t :: ts))
  | _, _ => none

end CommandName

/-- What may stand before the name of the command. -/
def frontSide : Side := ⟨[.table], false⟩

/-- The request of a command line; `none` if it is not used as it should be. What is
set behind the name of the command counts before what is set in front of it. -/
def Invocation.ofArguments (args : List String) : Option Invocation := do
  let (front, ended, args) ← frontSide.read args .empty
  match ended, args with
  | false, name :: args =>
    let command ← CommandName.ofName? name
    let (back, _, words) ← command.side.read args .empty
    let request ← command.request? back words
    some ⟨back.value? .table <|> front.value? .table,
      if back.verbosity = 0 then front.verbosity else back.verbosity, request⟩
  | _, _ => none

end OptionAtlas
