import OptionAtlas.Yaml.Character

/-!
# Places in a text

Columns decide what belongs to a block, so a reader of YAML knows at each moment
how far it has come. A carriage return and the line feed behind it are one break.

## Main definitions

* `Place` — an offset, a line and a column.
* `Cursor` — what is left of a text, and its place.
-/

namespace OptionAtlas.Yaml

/-- An offset in bytes from the start of the text, a line and a column, all counted
from zero. A column is a number of characters. -/
structure Place where
  offset : Nat
  line : Nat
  column : Nat
deriving DecidableEq, Repr

/-- The number of bytes that characters take. -/
def byteCount (cs : List Char) : Nat := cs.foldr (fun c n => c.utf8Size + n) 0

@[simp] theorem byteCount_nil : byteCount [] = 0 := rfl

@[simp] theorem byteCount_cons (c : Char) (cs : List Char) :
    byteCount (c :: cs) = c.utf8Size + byteCount cs := rfl

@[simp] theorem byteCount_append (cs ds : List Char) :
    byteCount (cs ++ ds) = byteCount cs + byteCount ds := by
  induction cs with
  | nil => simp
  | cons c cs ih => simp [ih, Nat.add_assoc]

namespace Place

/-- The place behind some characters of the line. -/
def right (cs : List Char) (p : Place) : Place :=
  ⟨p.offset + byteCount cs, p.line, p.column + cs.length⟩

/-- The start of the next line, behind the characters of a break. -/
def down (cs : List Char) (p : Place) : Place := ⟨p.offset + byteCount cs, p.line + 1, 0⟩

/-- The start of a line: this one if nothing of it was passed, or else the next. -/
def lineStart (p : Place) : Place := if p.column = 0 then p else p.down []

@[simp] theorem column_right (cs : List Char) (p : Place) :
    (p.right cs).column = p.column + cs.length := rfl

@[simp] theorem line_right (cs : List Char) (p : Place) : (p.right cs).line = p.line := rfl

@[simp] theorem offset_right (cs : List Char) (p : Place) :
    (p.right cs).offset = p.offset + byteCount cs := rfl

@[simp] theorem right_nil (p : Place) : p.right [] = p := rfl

@[simp] theorem right_right (cs ds : List Char) (p : Place) :
    (p.right cs).right ds = p.right (cs ++ ds) := by
  simp [right, Nat.add_assoc]

@[simp] theorem column_down (cs : List Char) (p : Place) : (p.down cs).column = 0 := rfl

@[simp] theorem column_lineStart (p : Place) : p.lineStart.column = 0 := by
  unfold lineStart
  split <;> simp_all

end Place

/-- What is left of a text, and its place. -/
structure Cursor where
  rest : List Char
  place : Place
deriving DecidableEq, Repr

namespace Cursor

/-- The cursor in front of a text. -/
def start (cs : List Char) : Cursor := ⟨cs, 0, 0, 0⟩

/-- Passes over `n` characters that are no breaks. -/
def skip (n : Nat) (c : Cursor) : Cursor :=
  ⟨c.rest.drop n, c.place.right (c.rest.take n)⟩

/-- Passes over the characters at the front that satisfy `p`, none of them a break. -/
def skipWhile (p : Char → Bool) (c : Cursor) : Cursor := c.skip (c.rest.takeWhile p).length

/-- Passes over a break, if there is one. -/
def skipBreak (c : Cursor) : Cursor :=
  match c.rest with
  | '\r' :: '\n' :: cs => ⟨cs, c.place.down ['\r', '\n']⟩
  | b :: cs => if isBreak b then ⟨cs, c.place.down [b]⟩ else c
  | [] => c

/-- The rest of a line that may hold blanks and a comment only; `none` if it holds
anything else. The break is passed over too. -/
def finishLine (c : Cursor) : Option Cursor :=
  let c := c.skipWhile isBlank
  let c := match c.rest with
    | '#' :: _ => c.skipWhile (!isBreak ·)
    | _ => c
  if breakAhead c.rest then some c.skipBreak else none

end Cursor

/-- What a break stands for inside a scalar: the separators of lines and paragraphs
stand for themselves, all others for a line feed. -/
def breakValue (c : Char) : Char := if c = '\u2028' ∨ c = '\u2029' then c else '\n'

end OptionAtlas.Yaml
