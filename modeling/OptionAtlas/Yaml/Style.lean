import OptionAtlas.Yaml.Meaning

/-!
# How a text is written

A text without line feeds is written plainly if it would be read back as the same
text, between single quotes if that is enough, and otherwise between double quotes.
A text with line feeds becomes a literal block, if its characters allow that, and is
otherwise written between double quotes.

## Main definitions

* `isPrintable` — the characters that are written as they are.
* `plainAllowed`, `singleAllowed`, `blockAllowed` — what the characters of a text allow.
* `Style`, `styleOf` — the choice.
-/

namespace OptionAtlas.Yaml

/-- The characters that are written as they are. -/
def isPrintable (c : Char) : Bool :=
  c = '\n' || (0x20 ≤ c.toNat && c.toNat ≤ 0x7E) ||
    (0xA0 ≤ c.toNat && c.toNat ≤ 0xFFFD && c ≠ '\uFEFF') || 0x10000 ≤ c.toNat

/-- Whether two neighbours satisfy `p` and `q`. -/
def hasPair (p q : Char → Bool) : List Char → Bool
  | c :: d :: cs => (p c && q d) || hasPair p q (d :: cs)
  | _ => false

/-- Whether a character is a space. -/
def isSpace (c : Char) : Bool := c = ' '

/-- Whether some character has to be escaped, or a space stands before a break. -/
def needsEscapes (cs : List Char) : Bool :=
  !cs.all isPrintable || hasPair isSpace isBreak cs

/-- Whether the text keeps its breaks and spaces between single quotes. -/
def singleAllowed (cs : List Char) : Bool := !needsEscapes cs && !hasPair isBreak isSpace cs

/-- Whether the text keeps its breaks and spaces in a block. -/
def blockAllowed (cs : List Char) : Bool :=
  !needsEscapes cs && !cs.isEmpty && cs.getLast? ≠ some ' '

/-- The characters that do not start a plain text. -/
def isLeadMark (c : Char) : Bool :=
  c ∈ ['#', ',', '[', ']', '{', '}', '&', '*', '!', '|', '>', '\'', '"', '%', '@', '\x60']

/-- Whether the text starts like a mark: with a character that has a meaning there, or
with one that has it before a gap, or with three dashes or points. -/
def startsLikeMark : List Char → Bool
  | [] => false
  | c :: cs =>
    isLeadMark c || ((c = '-' || c = '?' || c = ':') && gapAhead cs) ||
      ['-', '-', '-'].isPrefixOf (c :: cs) || ['.', '.', '.'].isPrefixOf (c :: cs)

/-- Whether a colon before a gap, or a number sign behind one, stands in the text. -/
def hasInnerMark : List Char → Bool
  | c :: d :: cs =>
    (isGap c && d = '#') || (d = ':' && gapAhead cs) || hasInnerMark (d :: cs)
  | _ => false

/-- Whether a text that is not empty would be read back without quotes around it. -/
def plainAllowed (cs : List Char) : Bool :=
  singleAllowed cs && !cs.any isBreak && !startsLikeMark cs && !hasInnerMark cs &&
    cs.head? ≠ some ' ' && cs.getLast? ≠ some ' '

/-- The ways to write a text. -/
inductive Style where
  | plain
  | single
  | double
  | literal
deriving DecidableEq, Repr

/-- Whether a plain scalar with these characters would be text, and no number with
padding either. -/
def readsAsText (s : String) : Bool := meaning s = .text s && !isPaddedNumber s.toList

/-- The way in which a text is written. -/
def styleOf (s : String) : Style :=
  let cs := s.toList
  if cs.contains '\n' then if blockAllowed cs then .literal else .double
  else if readsAsText s && plainAllowed cs then .plain
  else if singleAllowed cs then .single
  else .double

end OptionAtlas.Yaml
