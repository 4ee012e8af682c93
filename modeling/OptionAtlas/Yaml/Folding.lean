import OptionAtlas.Yaml.Cursor

/-!
# Gaps between the words of a scalar

Inside a plain or quoted scalar, blanks between two words of a line are kept. A gap
that reaches over a break is folded: one break stands for a space, and of several
the first is dropped. Blanks next to a break are dropped.

## Main definitions

* `Gap` — what stands between two words.
* `Gap.text` — what it stands for.
-/

namespace OptionAtlas.Yaml

/-- What stands between two words of a scalar. -/
inductive Gap where
  /-- Blanks of one line. -/
  | within (blanks : List Char)
  /-- A first break, unless it was escaped, and the breaks after it. -/
  | across (first : Option Char) (more : List Char)
deriving DecidableEq, Repr

namespace Gap

/-- No gap at all. -/
def empty : Gap := within []

/-- Whether the gap reaches over a break. -/
def broken : Gap → Bool
  | within _ => false
  | across _ _ => true

/-- The gap with a blank behind it. -/
def addBlank (c : Char) : Gap → Gap
  | within bs => within (bs ++ [c])
  | g => g

/-- The gap with a break behind it. -/
def addBreak (c : Char) : Gap → Gap
  | within _ => across (some (breakValue c)) []
  | across first more => across first (more ++ [breakValue c])

/-- What a gap stands for. -/
def text : Gap → List Char
  | within bs => bs
  | across (some '\n') [] => [' ']
  | across (some '\n') more => more
  | across first more => first.toList ++ more

@[simp] theorem text_empty : empty.text = [] := rfl

@[simp] theorem broken_empty : empty.broken = false := rfl

end Gap

end OptionAtlas.Yaml
