import OptionAtlas.Text.Extender
import OptionAtlas.Text.Printable

/-!
# Quoted text

Text quoted for a message stands between double quotes. Quotes and backslashes
are escaped, line ends, tabs and NUL have short escapes, and a character that is
not printable, or that would attach to the one before it, is written by its code
point in lower-case hexadecimal digits.

## Main definitions

* `quotedChar` — how one character is written.
* `quoted` — a whole string.
* `quotedOption` — an optional string.
-/

namespace OptionAtlas.Text

/-- The hexadecimal digits of `n`, in lower case, without leading zeros. -/
def hexDigits (n : Nat) : List Char := Nat.toDigits 16 n

/-- One character inside quotes. -/
def quotedChar (c : Char) : List Char :=
  if c = '"' then ['\\', '"']
  else if c = '\\' then ['\\', '\\']
  else if c = '\n' then ['\\', 'n']
  else if c = '\r' then ['\\', 'r']
  else if c = '\t' then ['\\', 't']
  else if c = '\x00' then ['\\', '0']
  else if isPrintable c && !isExtender c then [c]
  else ['\\', 'u', '{'] ++ hexDigits c.toNat ++ ['}']

/-- A string between quotes. -/
def quoted (s : String) : String :=
  String.ofList ('"' :: s.toList.flatMap quotedChar ++ ['"'])

/-- An optional string: `None`, or `Some` with the quoted string. -/
def quotedOption : Option String → String
  | none => "None"
  | some s => "Some(" ++ quoted s ++ ")"

end OptionAtlas.Text
