import OptionAtlas.Text.Ranges

/-!
# Blank characters and words

A character is blank when it has the Unicode property `White_Space`. The words of
a text are its maximal runs of characters that are not blank.

## Main definitions

* `isBlank` — the property `White_Space`.
* `words` — the maximal runs of characters that are not blank, in order.
-/

namespace OptionAtlas.Text

/-- The twenty-five characters with the property `White_Space`. -/
def blankRanges : Ranges :=
  [(0x9, 0xD), (0x20, 0x20), (0x85, 0x85), (0xA0, 0xA0), (0x1680, 0x1680),
   (0x2000, 0x200A), (0x2028, 0x2029), (0x202F, 0x202F), (0x205F, 0x205F),
   (0x3000, 0x3000)]

/-- Whether `c` has the property `White_Space`. -/
def isBlank (c : Char) : Bool := blankRanges.mem c.toNat

/-- The run of characters that reaches the front of the text, and the words after it. -/
def openRun : List Char → List Char × List (List Char)
  | [] => ([], [])
  | c :: cs =>
    let (run, rest) := openRun cs
    if isBlank c then ([], if run.isEmpty then rest else run :: rest)
    else (c :: run, rest)

/-- The maximal runs of characters that are not blank, in order. -/
def words (cs : List Char) : List (List Char) :=
  let (run, rest) := openRun cs
  if run.isEmpty then rest else run :: rest

/-- The words of a string. -/
def wordsOf (s : String) : List String := (words s.toList).map String.ofList

@[simp] theorem words_nil : words [] = [] := rfl

example : wordsOf "project  package " = ["project", "package"] := by decide +kernel

end OptionAtlas.Text
