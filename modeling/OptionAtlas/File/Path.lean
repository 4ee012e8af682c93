/-!
# Paths

A path is text with slashes between its parts. Slashes at its end, and parts that
are a single point except at its start, say nothing about where it leads.

## Main definitions

* `Path.parent?` — the folder of a path.
* `Path.isJson` — whether its last part ends in `.json`.
-/

namespace OptionAtlas.Path

/-- A path, its last character first, without slashes and single points at its end. -/
def trimmed : List Char → List Char
  | '/' :: cs => trimmed cs
  | '.' :: '/' :: cs => trimmed cs
  | cs => cs

/-- The folder of a path: empty for a single part, and `none` for a path without parts. -/
def parent? (path : String) : Option String :=
  let root := if path.toList.head? = some '/' then "/" else ""
  match trimmed path.toList.reverse with
  | [] => none
  | cs =>
    match trimmed (cs.dropWhile (· ≠ '/')) with
    | [] => some root
    | ds => some (String.ofList ds.reverse)

/-- The last part of a path. -/
def lastPart (path : String) : List Char :=
  ((trimmed path.toList.reverse).takeWhile (· ≠ '/')).reverse

/-- What follows the last point of a part; `none` if nothing precedes that point. -/
def suffix? (part : List Char) : Option (List Char) :=
  let r := part.reverse
  match r.dropWhile (· ≠ '.') with
  | _ :: _ :: _ => some (r.takeWhile (· ≠ '.')).reverse
  | _ => none

/-- Whether the last part of a path ends in `.json`, in letters of either case. -/
def isJson (path : String) : Bool :=
  lastPart path ≠ ['.', '.'] &&
    (suffix? (lastPart path)).any fun cs => cs.map Char.toLower = ['j', 's', 'o', 'n']

example : (parent? "d/e.json", parent? "./o", parent? "o", parent? "/") =
    (some "d", some ".", some "", none) := by decide +kernel

example : (isJson "a.JSON", isJson ".json", isJson "a.json/.") = (true, false, true) := by
  decide +kernel

end OptionAtlas.Path
