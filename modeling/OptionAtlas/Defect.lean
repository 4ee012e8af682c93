import OptionAtlas.Text.Quoted

/-!
# Defects of flag tables

Everything that can be wrong with the flags, catalogs and commands a program
declares, or with a reference to one of them. A token on a command line that
matches no flag is no defect; classification reports it.

## Main definitions

* `Defect` — the causes.
* `Defect.declaredAs` — says under which key of which catalog a bad flag stands.
* `Defect.message` — the wording.
-/

namespace OptionAtlas

/-- What is wrong with a declaration or a reference. -/
inductive Defect where
  /-- The names of a flag break the conventions; `key` and `catalog` say where it
  was declared, as far as that is known. -/
  | invalidFlag (long : String) (short : Option String) (reason : String)
      (key catalog : Option String)
  /-- Two entries of one catalog accept the same spelling. -/
  | sharedSpelling (spelling catalog : String) (keys : List String)
  /-- A key is declared twice in one catalog. -/
  | repeatedKey (key catalog : String)
  /-- A key that the catalog does not hold. -/
  | unknownKey (key catalog : String)
  /-- A catalog that was never declared. -/
  | unknownCatalog (name : String)
  /-- A command that was never declared. -/
  | unknownCommand (name : String)
  /-- Two catalogs of one name. -/
  | repeatedCatalog (name : String)
  /-- Two commands of one name. -/
  | repeatedCommand (name : String)
deriving DecidableEq, Repr

namespace Defect

/-- Attaches the declaring key and catalog to a bad flag; other defects name their
place already. -/
def declaredAs (catalog key : String) : Defect → Defect
  | .invalidFlag long short reason _ _ => .invalidFlag long short reason (some key) (some catalog)
  | d => d

/-- The words that say where a bad flag was declared. -/
def place : Option String → Option String → String
  | some key, some catalog => " for " ++ key ++ " in catalog " ++ catalog
  | some key, none => " for " ++ key
  | none, _ => ""

/-- The wording of a defect. -/
def message : Defect → String
  | .invalidFlag long short reason key catalog =>
    "invalid flag definition " ++ Text.quoted long ++ " (short: " ++ Text.quotedOption short ++ ")"
      ++ place key catalog ++ ": " ++ reason
  | .sharedSpelling spelling catalog keys =>
    "duplicate flag spelling " ++ spelling ++ " in " ++ catalog ++ " (keys: "
      ++ ", ".intercalate keys ++ ")"
  | .repeatedKey key catalog => "duplicate flag key " ++ key ++ " in catalog " ++ catalog
  | .unknownKey key catalog => "unknown flag key " ++ key ++ " in catalog " ++ catalog
  | .unknownCatalog name => "unknown catalog: " ++ name
  | .unknownCommand name => "unknown command: " ++ name
  | .repeatedCatalog name => "duplicate catalog: " ++ name
  | .repeatedCommand name => "duplicate command: " ++ name

@[simp] theorem declaredAs_invalidFlag (catalog key long : String) (short : Option String)
    (reason : String) (k c : Option String) :
    (invalidFlag long short reason k c).declaredAs catalog key =
      invalidFlag long short reason (some key) (some catalog) := rfl

end Defect

end OptionAtlas
