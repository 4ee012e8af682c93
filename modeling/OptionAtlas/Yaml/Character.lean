/-!
# Characters of YAML text

## Main definitions

* `isAllowed` — the characters that may stand in a text at all.
* `isBreak`, `isBlank`, `isGap` — what separates words.
* `isWord` — the characters of names.
* `gapAhead`, `marksDocument` — what the front of a text looks like.
* `hexValue?`, `octetCount?` — digits and octets of escapes.
-/

namespace OptionAtlas.Yaml

/-- The characters that may stand in a text: tab, line feed, carriage return and
everything that is no control character, surrogate or noncharacter of the first plane. -/
def isAllowed (c : Char) : Bool :=
  c = '\t' || c = '\n' || c = '\r' || (0x20 ≤ c.toNat && c.toNat ≤ 0x7E) || c.toNat = 0x85 ||
    (0xA0 ≤ c.toNat && c.toNat ≤ 0xFFFD) || 0x10000 ≤ c.toNat

/-- The characters that end a line. -/
def isBreak (c : Char) : Bool :=
  c = '\n' || c = '\r' || c = '\u0085' || c = '\u2028' || c = '\u2029'

/-- The characters that separate words within a line. -/
def isBlank (c : Char) : Bool := c = ' ' || c = '\t'

/-- Blanks and breaks. -/
def isGap (c : Char) : Bool := isBlank c || isBreak c

/-- The characters of anchors, of tag handles and of directive names. -/
def isWord (c : Char) : Bool := c.isAlphanum || c = '_' || c = '-'

/-- Whether the text ends here or goes on with a blank or a break. -/
def gapAhead : List Char → Bool
  | [] => true
  | c :: _ => isGap c

/-- Whether the text ends here or goes on with a break. -/
def breakAhead : List Char → Bool
  | [] => true
  | c :: _ => isBreak c

/-- Whether the text starts with three dashes or three points that stand alone. -/
def marksDocument : List Char → Bool
  | '-' :: '-' :: '-' :: cs => gapAhead cs
  | '.' :: '.' :: '.' :: cs => gapAhead cs
  | _ => false

/-- The value of a hexadecimal digit in either case. -/
def hexValue? (c : Char) : Option Nat :=
  if c.isDigit then some (c.toNat - '0'.toNat)
  else if 'a' ≤ c ∧ c ≤ 'f' then some (c.toNat - 'a'.toNat + 10)
  else if 'A' ≤ c ∧ c ≤ 'F' then some (c.toNat - 'A'.toNat + 10)
  else none

/-- The number of octets of a character that starts with this octet; `none` if none does. -/
def octetCount? (n : Nat) : Option Nat :=
  if n < 0x80 then some 1
  else if n / 0x20 = 0x6 then some 2
  else if n / 0x10 = 0xE then some 3
  else if n / 0x8 = 0x1E then some 4
  else none

@[simp] theorem gapAhead_nil : gapAhead [] = true := rfl

@[simp] theorem gapAhead_cons (c : Char) (cs : List Char) : gapAhead (c :: cs) = isGap c := rfl

@[simp] theorem breakAhead_nil : breakAhead [] = true := rfl

@[simp] theorem breakAhead_cons (c : Char) (cs : List Char) :
    breakAhead (c :: cs) = isBreak c := rfl

end OptionAtlas.Yaml
