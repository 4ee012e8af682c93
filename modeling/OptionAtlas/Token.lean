import OptionAtlas.Registry

/-!
# Classification of command-line tokens

Each token of a command line is a flag of the catalog, an option that the catalog
does not know, a positional argument, or the separator `--` that ends the options.
A long name may carry a value after an equals sign. Short names are never
clustered: `-wf` is one unknown option.

## Main definitions

* `TokenClass`, `TokenReport` — what a token is.
* `classify` — the reports of a token list.
* `unknownOptions` — the tokens reported as unknown options.
-/

namespace OptionAtlas

/-- What a token is. -/
inductive TokenClass where
  /-- A flag of the catalog, with the value that was attached to it. -/
  | flag (key group : String) (value : Option String)
  /-- It looks like an option and matches no flag. -/
  | unknownOption
  /-- Anything else, and everything after the separator. -/
  | positional
  /-- The separator itself. -/
  | terminator
deriving DecidableEq, Repr

/-- A token and what it is. -/
structure TokenReport where
  token : String
  kind : TokenClass
deriving DecidableEq, Repr

/-- The characters before the first equals sign and, if there is one, those after it. -/
def splitEquals : List Char → List Char × Option (List Char)
  | [] => ([], none)
  | c :: cs =>
    if c = '=' then ([], some cs)
    else ((c :: (splitEquals cs).1), (splitEquals cs).2)

/-- The class of a name that may carry a value. -/
def flagClass (flags : Catalog) (name : String) (value : Option String) : TokenClass :=
  match flags.resolve name with
  | some e => .flag e.key e.group value
  | none => .unknownOption

/-- The class of a token that stands before the separator and is not it. -/
def classOf (flags : Catalog) (token : String) : TokenClass :=
  match token.toList with
  | '-' :: '-' :: _ =>
    let (name, value) := splitEquals token.toList
    flagClass flags (String.ofList name) (value.map String.ofList)
  | '-' :: _ :: _ => flagClass flags token none
  | _ => .positional

/-- The reports of the tokens, one for each, in order. -/
def classify (flags : Catalog) : List String → List TokenReport
  | [] => []
  | t :: ts =>
    if t = "--" then ⟨t, .terminator⟩ :: ts.map (⟨·, .positional⟩)
    else ⟨t, classOf flags t⟩ :: classify flags ts

/-- The tokens that were reported as unknown options. -/
def unknownOptions (reports : List TokenReport) : List String :=
  (reports.filter (·.kind = .unknownOption)).map (·.token)

@[simp] theorem length_classify (flags : Catalog) (ts : List String) :
    (classify flags ts).length = ts.length := by
  induction ts with
  | nil => rfl
  | cons t ts ih => unfold classify; split <;> simp [ih]

end OptionAtlas
