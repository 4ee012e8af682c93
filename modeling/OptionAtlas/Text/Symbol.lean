/-!
# Symbols of a byte string

Bytes read as UTF-8 are characters where they are well formed. A byte that is no
part of a well-formed character is kept as a stray, so that a reader can skip text
it does not look into and refuse strays where it does.

## Main definitions

* `Symbol` — a character or a stray byte.
* `Symbol.ofString`, `Symbol.ofBytes` — the symbols of a string and of bytes.
* `Symbol.size` — the number of bytes.
-/

namespace OptionAtlas.Text

/-- A character, or a byte that is no part of one. -/
inductive Symbol where
  | char (c : Char)
  | stray (b : UInt8)
deriving DecidableEq, Repr

namespace Symbol

/-- The number of bytes of a symbol. -/
def size : Symbol → Nat
  | .char c => c.utf8Size
  | .stray _ => 1

/-- The symbols of a string. -/
def ofString (s : String) : List Symbol := s.toList.map .char

/-- The symbols from position `i` on; `fuel` bounds their number. -/
def ofBytesFrom (bytes : ByteArray) : Nat → Nat → List Symbol
  | 0, _ => []
  | fuel + 1, i =>
    if h : i < bytes.size then
      match bytes.utf8DecodeChar? i with
      | some c => .char c :: ofBytesFrom bytes fuel (i + c.utf8Size)
      | none => .stray bytes[i] :: ofBytesFrom bytes fuel (i + 1)
    else []

/-- The symbols of bytes read as UTF-8. -/
def ofBytes (bytes : ByteArray) : List Symbol := ofBytesFrom bytes bytes.size 0

end Symbol

end OptionAtlas.Text
