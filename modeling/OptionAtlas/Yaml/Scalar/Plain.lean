import OptionAtlas.Yaml.Folding

/-!
# Plain scalars

A plain scalar has no quotes around it. It goes on over gaps until a comment, a
colon before a gap, a document mark or, outside brackets, a line that is not
indented deeper than the block it stands in. Inside brackets it also ends at
brackets and commas.

## Main definitions

* `Plain.scan` — reads a plain scalar.
-/

namespace OptionAtlas.Yaml.Plain

/-- What was read: the text, the cursor behind the gap that follows it, and whether
that gap reached over a break. -/
structure Scanned where
  text : List Char
  cursor : Cursor
  broken : Bool
deriving DecidableEq, Repr

/-- Puts characters in front of the text. -/
def Scanned.prepend (cs : List Char) (s : Scanned) : Scanned := { s with text := cs ++ s.text }

/-- The characters that end a scalar inside brackets. -/
def isFlowMark (c : Char) : Bool := c = ',' || c = '[' || c = ']' || c = '{' || c = '}'

/-- A colon inside brackets before a bracket, a comma or a question mark, which is refused. -/
def isStrayColon (inFlow : Bool) (c : Char) (cs : List Char) : Bool :=
  inFlow && c = ':' &&
    match cs with
    | d :: _ => isFlowMark d || d = '?'
    | [] => false

/-- Whether `c`, with `cs` behind it, ends a scalar in the middle of a word. -/
def endsWord (inFlow : Bool) (c : Char) (cs : List Char) : Bool :=
  (c = ':' && gapAhead cs) || (inFlow && isFlowMark c)

/-- Whether the scalar ends behind a gap, in front of `c`. -/
def endsLine (inFlow : Bool) (indent : Nat) (p : Place) (c : Char) (cs : List Char) : Bool :=
  (!inFlow && p.column < indent) || (p.column = 0 && marksDocument (c :: cs)) || c = '#'

/-- The rest of a scalar that stands behind a gap; `indent` is the least column at
which it may go on outside brackets. `none` if it is refused. -/
def scanFrom (inFlow : Bool) (indent : Nat) : List Char → Place → Gap → Option Scanned
  | [], p, gap => some ⟨[], ⟨[], p⟩, gap.broken⟩
  | '\r' :: '\n' :: cs, p, gap =>
    scanFrom inFlow indent cs (p.down ['\r', '\n']) (gap.addBreak '\n')
  | c :: cs, p, gap =>
    if isBreak c then scanFrom inFlow indent cs (p.down [c]) (gap.addBreak c)
    else if isBlank c then
      if gap.broken && c = '\t' && p.column < indent then none
      else scanFrom inFlow indent cs (p.right [c]) (gap.addBlank c)
    else if gap ≠ .empty && endsLine inFlow indent p c cs then
      some ⟨[], ⟨c :: cs, p⟩, gap.broken⟩
    else if isStrayColon inFlow c cs then none
    else if endsWord inFlow c cs then some ⟨[], ⟨c :: cs, p⟩, gap.broken⟩
    else (scanFrom inFlow indent cs (p.right [c]) .empty).map (·.prepend (gap.text ++ [c]))

/-- Reads a plain scalar at a cursor. -/
def scan (inFlow : Bool) (indent : Nat) (c : Cursor) : Option Scanned :=
  scanFrom inFlow indent c.rest c.place .empty

end OptionAtlas.Yaml.Plain
