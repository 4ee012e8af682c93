import OptionAtlas.Yaml.Cursor

/-!
# Block scalars

A block scalar starts with a header of a bar or an angle bracket, an optional
indentation and an optional mark for the breaks at its end. The lines that follow
and are indented that deep are its text; without an indentation in the header the
first line that is not empty decides it. Behind a bar breaks are kept; behind an
angle bracket a break between two lines that do not start with a blank is folded.

## Main definitions

* `Block.Chomping`, `Block.Header` — the header.
* `Block.scan` — reads a block scalar behind its bar or angle bracket.
-/

namespace OptionAtlas.Yaml.Block

/-- What happens to the breaks at the end of the text. -/
inductive Chomping where
  /-- The first is kept. -/
  | clip
  /-- None is kept. -/
  | strip
  /-- All are kept. -/
  | keep
deriving DecidableEq, Repr

/-- The marks behind the bar or angle bracket. -/
structure Header where
  chomping : Chomping
  /-- The indentation relative to the block around the scalar, if it is given. -/
  depth : Option Nat
deriving DecidableEq, Repr

/-- The mark for the breaks at the end. -/
def chomping? (c : Char) : Option Chomping :=
  if c = '+' then some .keep else if c = '-' then some .strip else none

/-- An indentation from one to nine; `some none` if the character is no digit, and
`none` if it is a zero. -/
def depth? (c : Char) : Option (Option Nat) :=
  if c = '0' then none
  else if c.isDigit then some (some (c.toNat - '0'.toNat))
  else some none

/-- The marks at the front of a text, in either order, and their number; `none` if
the indentation is zero. -/
def header? : List Char → Option (Header × Nat)
  | [] => some (⟨.clip, none⟩, 0)
  | c :: cs =>
    match chomping? c with
    | some ch =>
      match cs with
      | [] => some (⟨ch, none⟩, 1)
      | d :: _ => do
        match ← depth? d with
        | some n => some (⟨ch, some n⟩, 2)
        | none => some (⟨ch, none⟩, 1)
    | none => do
      match ← depth? c with
      | none => some (⟨.clip, none⟩, 0)
      | some n =>
        match cs.head?.bind chomping? with
        | some ch => some (⟨ch, some n⟩, 2)
        | none => some (⟨.clip, some n⟩, 1)

/-- The breaks that are not yet part of the text. -/
structure Pending where
  /-- The break that ended the last line with text. -/
  first : Option Char
  /-- The breaks of the empty lines after it. -/
  more : List Char
  /-- Whether the last line with text started with a blank. -/
  afterBlank : Bool
deriving DecidableEq, Repr

namespace Pending

/-- No breaks. -/
def empty : Pending := ⟨none, [], false⟩

/-- What the breaks stand for in front of a line that starts with `c`. -/
def joint (folded : Bool) (c : Char) (b : Pending) : List Char :=
  if folded && b.first = some '\n' && !b.afterBlank && !isBlank c then
    if b.more.isEmpty then [' '] else b.more
  else b.first.toList ++ b.more

/-- What the breaks stand for at the end of the text. -/
def tail (ch : Chomping) (b : Pending) : List Char :=
  match ch with
  | .strip => []
  | .clip => b.first.toList
  | .keep => b.first.toList ++ b.more

/-- The breaks after one more; `inside` says whether it ends a line with text. -/
def add (inside : Bool) (c : Char) (b : Pending) : Pending :=
  if inside then { b with first := some c } else { b with more := b.more ++ [c] }

end Pending

/-- The text of the lines from here on that start at column `depth`. Inside a line
`inside` holds. `none` if a tab stands where spaces are expected. -/
def lines (folded : Bool) (ch : Chomping) (depth : Nat) :
    List Char → Place → Bool → Pending → Option (List Char × Cursor)
  | [], p, _, b => some (b.tail ch, ⟨[], p⟩)
  | '\r' :: '\n' :: cs, p, inside, b =>
    lines folded ch depth cs (p.down ['\r', '\n']) false (b.add inside '\n')
  | c :: cs, p, inside, b =>
    if isBreak c then lines folded ch depth cs (p.down [c]) false (b.add inside (breakValue c))
    else if inside then
      (lines folded ch depth cs (p.right [c]) true b).map fun r => (c :: r.1, r.2)
    else if p.column < depth then
      if c = ' ' then lines folded ch depth cs (p.right [c]) false b
      else if c = '\t' then none
      else some (b.tail ch, ⟨c :: cs, p⟩)
    else if p.column = depth then
      (lines folded ch depth cs (p.right [c]) true ⟨none, [], isBlank c⟩).map
        fun r => (b.joint folded c ++ c :: r.1, r.2)
    else some (b.tail ch, ⟨c :: cs, p⟩)

/-- The empty lines at the start of a scalar without an indentation: the greatest
column reached, the breaks, and the cursor in front of the first character that is
neither a space nor a break. -/
def blankLines : List Char → Place → Nat → List Char → Option (Nat × List Char × Cursor)
  | [], p, most, bs => some (max most p.column, bs, ⟨[], p⟩)
  | '\r' :: '\n' :: cs, p, most, bs =>
    blankLines cs (p.down ['\r', '\n']) (max most p.column) (bs ++ ['\n'])
  | c :: cs, p, most, bs =>
    if isBreak c then blankLines cs (p.down [c]) (max most p.column) (bs ++ [breakValue c])
    else if c = ' ' then blankLines cs (p.right [c]) most bs
    else if c = '\t' then none
    else some (max most p.column, bs, ⟨c :: cs, p⟩)

/-- Reads a block scalar behind its bar or angle bracket. `outer` is the least column
of a line inside the block around it. -/
def scan (folded : Bool) (outer : Nat) (c : Cursor) : Option (List Char × Cursor) := do
  let (header, n) ← header? c.rest
  let c ← (c.skip n).finishLine
  match header.depth with
  | some d => lines folded header.chomping (outer - 1 + d) c.rest c.place false .empty
  | none =>
    let (most, bs, c) ← blankLines c.rest c.place 0 []
    lines folded header.chomping (max most (max outer 1)) c.rest c.place false
      { Pending.empty with more := bs }

end OptionAtlas.Yaml.Block
