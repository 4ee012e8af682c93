import OptionAtlas.Yaml.Folding

/-!
# Quoted scalars

Between single quotes a quote is written twice and all other characters stand for
themselves. Between double quotes a backslash starts an escape; before a break it
takes the break away. In both, gaps that reach over a break are folded, and a line
must not start with a document mark.

## Main definitions

* `Quoted.escape?` — the character an escape stands for.
* `Quoted.single`, `Quoted.double` — read the text behind an opening quote.
-/

namespace OptionAtlas.Yaml.Quoted

/-- Puts characters in front of a text that was read. -/
def prepend (cs : List Char) (r : List Char × Cursor) : List Char × Cursor := (cs ++ r.1, r.2)

/-- The text up to the closing single quote, behind a gap. -/
def single : List Char → Place → Gap → Option (List Char × Cursor)
  | [], _, _ => none
  | '\r' :: '\n' :: cs, p, gap => single cs (p.down ['\r', '\n']) (gap.addBreak '\n')
  | '\'' :: '\'' :: cs, p, gap =>
    (single cs (p.right ['\'', '\'']) .empty).map (prepend (gap.text ++ ['\'']))
  | c :: cs, p, gap =>
    if isBreak c then single cs (p.down [c]) (gap.addBreak c)
    else if isBlank c then single cs (p.right [c]) (gap.addBlank c)
    else if p.column = 0 && marksDocument (c :: cs) then none
    else if c = '\'' then some (gap.text, ⟨cs, p.right [c]⟩)
    else (single cs (p.right [c]) .empty).map (prepend (gap.text ++ [c]))

/-- The escapes of one letter. -/
def shortEscapes : List (Char × Char) :=
  [('0', '\x00'), ('a', '\x07'), ('b', '\x08'), ('t', '\t'), ('\t', '\t'), ('n', '\n'),
   ('v', '\x0b'), ('f', '\x0c'), ('r', '\r'), ('e', '\x1b'), (' ', ' '), ('"', '"'),
   ('/', '/'), ('\\', '\\'), ('N', '\u0085'), ('_', '\u00a0'), ('L', '\u2028'),
   ('P', '\u2029')]

/-- The number of hexadecimal digits behind a letter. -/
def codeLength? (c : Char) : Option Nat :=
  if c = 'x' then some 2 else if c = 'u' then some 4 else if c = 'U' then some 8 else none

/-- The number that `n` hexadecimal digits at the front of a text stand for. -/
def code? : Nat → List Char → Nat → Option Nat
  | 0, _, value => some value
  | _ + 1, [], _ => none
  | n + 1, c :: cs, value => do code? n cs (value * 16 + (← hexValue? c))

/-- The character with a code point, if there is one. -/
def charOf? (n : Nat) : Option Char :=
  if h : n.isValidChar then some (Char.ofNatAux n h) else none

/-- The character that the text behind a backslash stands for, and the number of
characters it takes. -/
def escape? : List Char → Option (Char × Nat)
  | [] => none
  | c :: cs =>
    match shortEscapes.lookup c with
    | some x => some (x, 1)
    | none => do
      let n ← codeLength? c
      let x ← charOf? (← code? n cs 0)
      some (x, n + 1)

/-- The text up to the closing double quote, behind a gap. `pass` characters of an
escape are still to be passed over. -/
def double : Nat → List Char → Place → Gap → Option (List Char × Cursor)
  | _, [], _, _ => none
  | pass + 1, _ :: cs, p, gap => double pass cs p gap
  | 0, '\\' :: '\r' :: '\n' :: cs, p, gap =>
    (double 0 cs ((p.right ['\\']).down ['\r', '\n']) (.across none [])).map (prepend gap.text)
  | 0, '\r' :: '\n' :: cs, p, gap => double 0 cs (p.down ['\r', '\n']) (gap.addBreak '\n')
  | 0, '\\' :: c :: cs, p, gap =>
    if isBreak c then
      (double 0 cs ((p.right ['\\']).down [c]) (.across none [])).map (prepend gap.text)
    else
      match escape? (c :: cs) with
      | none => none
      | some (x, n) =>
        (double n (c :: cs) (p.right ('\\' :: (c :: cs).take n)) .empty).map
          (prepend (gap.text ++ [x]))
  | 0, c :: cs, p, gap =>
    if isBreak c then double 0 cs (p.down [c]) (gap.addBreak c)
    else if isBlank c then double 0 cs (p.right [c]) (gap.addBlank c)
    else if p.column = 0 && marksDocument (c :: cs) then none
    else if c = '"' then some (gap.text, ⟨cs, p.right [c]⟩)
    else if c = '\\' then none
    else (double 0 cs (p.right [c]) .empty).map (prepend (gap.text ++ [c]))

end OptionAtlas.Yaml.Quoted
