import OptionAtlas.Defect
import OptionAtlas.Text.Blank

/-!
# Flags

A flag is known by a long name such as `--output-path` and, if it has one, a short
name such as `-o`. The names follow a grammar, and a `Flag` carries the proof that
its own do, so no flag can be spelled `-`, `--` or with an equals sign.

## Main definitions

* `isLongName`, `isShortName` — the grammar of names.
* `Flag` — a long name with an optional short one.
* `Flag.ofNames` — checks two names and says which rule is broken first.
* `Flag.spellings`, `Flag.accepts` — the tokens that mean the flag.
* `Flag.usage` — the form shown in help.
-/

namespace OptionAtlas

/-- Two dashes, then a name that does not start with a dash and holds neither an
equals sign nor a blank. -/
def isLongName : List Char → Bool
  | '-' :: '-' :: c :: cs => c != '-' && (c :: cs).all fun x => x != '=' && !Text.isBlank x
  | _ => false

/-- A dash and one ASCII letter or digit. -/
def isShortName : List Char → Bool
  | ['-', c] => c.isAlphanum
  | _ => false

/-- The names of one command-line flag. -/
structure Flag where
  /-- The long name, such as `--output-path`. -/
  long : String
  /-- The short name, such as `-o`, if there is one. -/
  short : Option String
  long_valid : isLongName long.toList = true
  short_valid : ∀ s, short = some s → isShortName s.toList = true
deriving DecidableEq

/-- The rules of the grammar, in the order in which they are checked. -/
inductive NameRule where
  | longPresent
  | namesDiffer
  | longForm
  | shortForm
deriving DecidableEq, Repr

/-- What is said when a rule is broken. -/
def NameRule.reason : NameRule → String
  | .longPresent => "long name is empty"
  | .namesDiffer => "short name equals long name"
  | .longForm => "long name must be `--` followed by a name without spaces or `=`"
  | .shortForm => "short name must be `-` followed by one letter or digit"

namespace Flag

/-- Whether every name that is present is a short name. -/
def shortOk : Option String → Bool
  | none => true
  | some s => isShortName s.toList

theorem shortOk_iff {o : Option String} :
    shortOk o = true ↔ ∀ s, o = some s → isShortName s.toList = true := by
  cases o <;> simp [shortOk]

/-- The first rule that the two names break. -/
def brokenRule? (long : String) (short : Option String) : Option NameRule :=
  if long = "" then some .longPresent
  else if short = some long then some .namesDiffer
  else if isLongName long.toList = false then some .longForm
  else if shortOk short = false then some .shortForm
  else none

theorem valid_of_brokenRule?_eq_none {long : String} {short : Option String}
    (h : brokenRule? long short = none) :
    isLongName long.toList = true ∧ shortOk short = true := by
  unfold brokenRule? at h
  grind

/-- The flag with these names, or the defect that names the first broken rule. -/
def ofNames (long : String) (short : Option String) : Except Defect Flag :=
  match h : brokenRule? long short with
  | some rule => .error (.invalidFlag long short rule.reason none none)
  | none =>
    have ok := valid_of_brokenRule?_eq_none h
    .ok ⟨long, short, ok.1, shortOk_iff.1 ok.2⟩

/-- Every token that means the flag, the short name first. -/
def spellings (f : Flag) : List String := f.short.toList ++ [f.long]

/-- Whether `token` is one of the flag's names. Case matters, and a value attached
with an equals sign is not split off here. -/
def accepts (f : Flag) (token : String) : Bool := f.long == token || f.short == some token

/-- The form shown in help: `-o, --output-path` or `--no-cache`. -/
def usage (f : Flag) : String :=
  match f.short with
  | some s => s ++ ", " ++ f.long
  | none => f.long

@[simp] theorem mem_spellings {f : Flag} {s : String} :
    s ∈ f.spellings ↔ f.short = some s ∨ f.long = s := by
  simp [spellings, eq_comm]

theorem accepts_iff {f : Flag} {s : String} : f.accepts s = true ↔ s ∈ f.spellings := by
  simp [accepts, or_comm]

end Flag

end OptionAtlas
