import OptionAtlas.Yaml.Intake
import OptionAtlas.Yaml.Property
import OptionAtlas.Yaml.Scalar.Block
import OptionAtlas.Yaml.Scalar.Plain
import OptionAtlas.Yaml.Scalar.Quoted

/-!
# Splitting YAML into tokens

Outside brackets indentation opens and closes blocks. A mapping key that is written
without a question mark is known as a key only when its colon is met, so the place
of each possible key is kept, one for each level of brackets, and the key mark goes
into the tokens at that place later. A possible key ends with its line and after
1024 bytes; one at the column of the block around it has to become a key.

If the text is refused somewhere, the tokens before that are still delivered, up to
the first place that may yet turn out to be a key.

## Main definitions

* `Lexer` — the state between two tokens.
* `Lexer.step` — reads the next token.
* `tokens` — all tokens of a text.
-/

namespace OptionAtlas.Yaml

/-- A place where a key may have started. -/
structure PossibleKey where
  /-- The number of tokens before it. -/
  order : Nat
  place : Place
  /-- Whether the text is refused if it does not become a key. -/
  required : Bool
deriving DecidableEq, Repr

namespace PossibleKey

/-- Whether the key can no longer be one at place `p`. -/
def stale (p : Place) (k : PossibleKey) : Bool :=
  k.place.line < p.line || k.place.offset + 1024 < p.offset

/-- Drops a key that can no longer be one; `none` if it was required. -/
def refresh (p : Place) : Option PossibleKey → Option (Option PossibleKey)
  | none => some none
  | some k => if k.stale p then if k.required then none else some none else some (some k)

end PossibleKey

/-- The state between two tokens. -/
structure Lexer where
  cursor : Cursor
  /-- Whether the whole text was taken in. If not, a token is refused if it takes a look
  at what was not. -/
  whole : Bool
  /-- The tokens so far, the newest first. -/
  tokens : List Token
  /-- The columns of the open blocks, the innermost first. -/
  blocks : List Nat
  /-- Whether a key may start here. -/
  keyAllowed : Bool
  /-- The possible key of this level of brackets. -/
  possible : Option PossibleKey
  /-- The possible keys of the levels around, the innermost first. -/
  outer : List (Option PossibleKey)
deriving Repr

namespace Lexer

/-- The state in front of a text. -/
def start (t : Intake) : Lexer := ⟨Cursor.start t.chars, t.whole, [], [], true, none, []⟩

/-- Whether the next token stands inside brackets. -/
def inFlow (s : Lexer) : Bool := !s.outer.isEmpty

/-- The column of the cursor. -/
def column (s : Lexer) : Nat := s.cursor.place.column

/-- The least column of a line that belongs to the innermost block. -/
def inner (s : Lexer) : Nat :=
  match s.blocks with
  | [] => 0
  | b :: _ => b + 1

/-- Appends a token. -/
def push (t : Token) (s : Lexer) : Lexer := { s with tokens := t :: s.tokens }

/-- Puts a token in after the first `order` tokens. -/
def insert (order : Nat) (t : Token) (s : Lexer) : Lexer :=
  let later := s.tokens.length - order
  { s with tokens := s.tokens.take later ++ t :: s.tokens.drop later }

/-! ## Blocks -/

/-- Opens a block at a column if the innermost one starts further left. -/
def openBlock (column order : Nat) (t : Token) (s : Lexer) : Lexer :=
  if !s.inFlow && s.inner ≤ column then
    { s.insert order t with blocks := column :: s.blocks }
  else s

/-- The blocks that start left of a column or at it, with an end for each other one. -/
def closeTo (least : Nat) : List Nat → List Token → List Nat × List Token
  | [], ts => ([], ts)
  | b :: bs, ts => if least ≤ b then closeTo least bs (.blockEnd :: ts) else (b :: bs, ts)

/-- Closes the blocks whose column is at least `least`. -/
def closeBlocks (least : Nat) (s : Lexer) : Lexer :=
  if s.inFlow then s
  else
    let (bs, ts) := closeTo least s.blocks s.tokens
    { s with blocks := bs, tokens := ts }

/-! ## Possible keys -/

/-- Forgets the possible key of this level; `none` if it was required. -/
def dropKey (s : Lexer) : Option Lexer :=
  match s.possible with
  | some k => if k.required then none else some { s with possible := none }
  | none => some s

/-- Notes that a key may start here, if one may. -/
def noteKey (s : Lexer) : Option Lexer :=
  if s.keyAllowed then do
    let s ← s.dropKey
    let required := !s.inFlow && s.inner = s.column + 1
    some { s with possible := some ⟨s.tokens.length, s.cursor.place, required⟩ }
  else some s

/-- Drops the possible keys that can no longer be keys; `none` if one was required. -/
def refreshKeys (s : Lexer) : Option Lexer := do
  let outer ← s.outer.mapM (PossibleKey.refresh s.cursor.place)
  let possible ← PossibleKey.refresh s.cursor.place s.possible
  some { s with possible, outer }

/-! ## Tokens -/

/-- Moves the cursor by `n` characters and appends a token. -/
def mark (n : Nat) (t : Token) (s : Lexer) : Lexer :=
  { s with cursor := s.cursor.skip n, tokens := t :: s.tokens }

/-- Says whether a key may start behind the token. -/
def allowKey (b : Bool) (s : Lexer) : Lexer := { s with keyAllowed := b }

/-- The cursor in front of the next token, and whether a key may start there. Blanks,
comments and breaks are passed over. A tab is no blank where a key may start outside
brackets, and a break lets a key start there. A byte order mark may start a line. -/
def gapFrom (inFlow : Bool) : List Char → Place → Bool → Bool → Cursor × Bool
  | [], p, keyAllowed, _ => (⟨[], p⟩, keyAllowed)
  | '\r' :: '\n' :: cs, p, keyAllowed, _ =>
    gapFrom inFlow cs (p.down ['\r', '\n']) (keyAllowed || !inFlow) false
  | c :: cs, p, keyAllowed, inComment =>
    if isBreak c then gapFrom inFlow cs (p.down [c]) (keyAllowed || !inFlow) false
    else if inComment || c = '#' then gapFrom inFlow cs (p.right [c]) keyAllowed true
    else if c = ' ' || (c = '\t' && (inFlow || !keyAllowed)) || (c = '\uFEFF' && p.column = 0) then
      gapFrom inFlow cs (p.right [c]) keyAllowed false
    else (⟨c :: cs, p⟩, keyAllowed)

/-- The state in front of the next token. -/
def toNextToken (s : Lexer) : Lexer :=
  let (cursor, keyAllowed) := gapFrom s.inFlow s.cursor.rest s.cursor.place s.keyAllowed false
  { s with cursor, keyAllowed }

/-- The end of the text. It ends the line before it, if there is anything on that. -/
def atEnd (s : Lexer) : Option Lexer := do
  let s ← (s.closeBlocks 0).dropKey
  let cursor : Cursor := { s.cursor with place := s.cursor.place.lineStart }
  some (({ s with cursor }.allowKey false).push .streamEnd)

/-- A directive. -/
def directive (s : Lexer) : Option Lexer := do
  let s ← (s.closeBlocks 0).dropKey
  let (t, c) ← Property.directive s.cursor
  some ({ s with cursor := c }.push t |>.allowKey false)

/-- A mark at the start or the end of a document. -/
def documentMark (t : Token) (s : Lexer) : Option Lexer := do
  let s ← (s.closeBlocks 0).dropKey
  some ((s.mark 3 t).allowKey false)

/-- An opening bracket. -/
def openFlow (t : Token) (s : Lexer) : Option Lexer := do
  let s ← s.noteKey
  some ({ s with possible := none, outer := s.possible :: s.outer }.mark 1 t |>.allowKey true)

/-- A closing bracket. -/
def closeFlow (t : Token) (s : Lexer) : Option Lexer := do
  let s ← s.dropKey
  let s := match s.outer with
    | k :: ks => { s with possible := k, outer := ks }
    | [] => s
  some ((s.mark 1 t).allowKey false)

/-- A comma. -/
def flowEntry (s : Lexer) : Option Lexer := do
  let s ← s.dropKey
  some ((s.mark 1 .flowEntry).allowKey true)

/-- Opens a block at the cursor, if one may start here. -/
def openHere (t : Token) (s : Lexer) : Option Lexer :=
  if s.inFlow then some s
  else if s.keyAllowed then some (s.openBlock s.column s.tokens.length t)
  else none

/-- The dash of a block entry. -/
def blockEntry (s : Lexer) : Option Lexer := do
  let s ← s.openHere .blockSequenceStart
  let s ← s.dropKey
  some ((s.mark 1 .blockEntry).allowKey true)

/-- The question mark of a key. -/
def key (s : Lexer) : Option Lexer := do
  let s ← s.openHere .blockMappingStart
  let s ← s.dropKey
  some ((s.mark 1 .key).allowKey !s.inFlow)

/-- The colon of a value. -/
def value (s : Lexer) : Option Lexer :=
  match s.possible with
  | some k =>
    let s := (s.insert k.order .key).openBlock k.place.column k.order .blockMappingStart
    some ({ s with possible := none }.mark 1 .value |>.allowKey false)
  | none => do
    let s ← s.openHere .blockMappingStart
    some ((s.mark 1 .value).allowKey !s.inFlow)

/-- An anchor or an alias. -/
def named (make : String → Token) (s : Lexer) : Option Lexer := do
  let s ← s.noteKey
  let (name, c) ← Property.name s.cursor
  some ({ s with cursor := c }.push (make name) |>.allowKey false)

/-- A tag. -/
def tag (s : Lexer) : Option Lexer := do
  let s ← s.noteKey
  let (t, c) ← Property.tag s.inFlow s.cursor
  some ({ s with cursor := c }.push t |>.allowKey false)

/-- A block scalar. -/
def blockScalar (folded : Bool) (s : Lexer) : Option Lexer := do
  let s ← s.dropKey
  let (text, c) ← Block.scan folded s.inner (s.cursor.skip 1)
  some ({ s with cursor := c }.push (.scalar false (String.ofList text)) |>.allowKey true)

/-- A quoted scalar. -/
def quotedScalar (single : Bool) (s : Lexer) : Option Lexer := do
  let s ← s.noteKey
  let c := s.cursor.skip 1
  let (text, c) ← if single then Quoted.single c.rest c.place .empty
    else Quoted.double 0 c.rest c.place .empty
  some ({ s with cursor := c }.push (.scalar false (String.ofList text)) |>.allowKey false)

/-- A plain scalar. -/
def plainScalar (s : Lexer) : Option Lexer := do
  let s ← s.noteKey
  let r ← Plain.scan s.inFlow s.inner s.cursor
  some ({ s with cursor := r.cursor }.push (.scalar true (String.ofList r.text))
    |>.allowKey r.broken)

/-- The characters that start no plain scalar. -/
def isIndicator (c : Char) : Bool :=
  c ∈ ['-', '?', ':', ',', '[', ']', '{', '}', '#', '&', '*', '!', '|', '>', '\'', '"', '%', '@',
    '\x60']

/-- Whether a plain scalar may start with `c` in front of `cs`. -/
def startsPlain (inFlow : Bool) (c : Char) (cs : List Char) : Bool :=
  !(isGap c || isIndicator c) || (c = '-' && !(cs.head?.any isBlank)) ||
    (!inFlow && (c = '?' || c = ':') && !gapAhead cs)

/-- The token that starts at the cursor. -/
def read (s : Lexer) : Option Lexer :=
  match s.cursor.rest with
  | [] => s.atEnd
  | c :: cs =>
    if s.column = 0 && c = '%' then s.directive
    else if s.column = 0 && marksDocument (c :: cs) then
      s.documentMark (if c = '-' then .documentStart else .documentEnd)
    else if c = '[' then s.openFlow .flowSequenceStart
    else if c = '{' then s.openFlow .flowMappingStart
    else if c = ']' then s.closeFlow .flowSequenceEnd
    else if c = '}' then s.closeFlow .flowMappingEnd
    else if c = ',' then s.flowEntry
    else if c = '-' && gapAhead cs then s.blockEntry
    else if c = '?' && (s.inFlow || gapAhead cs) then s.key
    else if c = ':' && (s.inFlow || gapAhead cs) then s.value
    else if c = '*' then s.named .alias
    else if c = '&' then s.named .anchor
    else if c = '!' then s.tag
    else if c = '|' && !s.inFlow then s.blockScalar false
    else if c = '>' && !s.inFlow then s.blockScalar true
    else if c = '\'' then s.quotedScalar true
    else if c = '"' then s.quotedScalar false
    else if startsPlain s.inFlow c cs then s.plainScalar
    else none

/-- Whether a token that starts at the cursor can be read: it may look at four characters. -/
def readable (s : Lexer) : Bool :=
  s.whole ||
    match s.cursor.rest with
    | _ :: _ :: _ :: _ :: _ => true
    | _ => false

/-- Whether the character behind a token that was read could be looked at. -/
def readableBehind (s : Lexer) : Bool := s.whole || !s.cursor.rest.isEmpty

/-- Reads the next token; `none` if the text is refused. -/
def step (s : Lexer) : Option Lexer := do
  let s ← s.toNextToken.refreshKeys
  if s.readable then
    let s ← (s.closeBlocks (s.column + 1)).read
    if s.readableBehind then s.refreshKeys else none
  else none

/-- The number of tokens that no possible key stands before. -/
def settled (s : Lexer) : Nat :=
  (s.possible :: s.outer).foldl
    (fun n k => match k with | some k => min n k.order | none => n) s.tokens.length

/-- The tokens from state `s` on; `fuel` bounds the number of steps. -/
def run : Nat → Lexer → List Token
  | 0, s => s.tokens.reverse.take s.settled
  | fuel + 1, s =>
    match s.step with
    | none => s.tokens.reverse.take s.settled
    | some s =>
      if s.tokens.head? = some .streamEnd then s.tokens.reverse else run fuel s

end Lexer

/-- The tokens of a text. They end with `streamEnd` unless the text is refused. -/
def tokens (t : Intake) : List Token := Lexer.run (t.chars.length + 1) (Lexer.start t)

end OptionAtlas.Yaml
