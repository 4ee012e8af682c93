import OptionAtlas.Text.Symbol
import OptionAtlas.Yaml.Character

/-!
# Taking in a text

A text is taken in by portions of whole characters, each as long as fits into 16384
bytes. A portion that holds a stray byte or a character that is not allowed is
refused as a whole, but not before the reader gets to it: what stands in the
portions before it can still be read. A character that the end of the text cuts off
is refused on its own.

## Main definitions

* `Intake` — the characters that could be taken in.
* `Intake.ofSymbols` — takes in a text.

## Main statements

* `Intake.ofSymbols_map_char` — a text of allowed characters is taken in as a whole.
-/

namespace OptionAtlas.Yaml

open Text (Symbol)

/-- What could be taken in of a text. -/
structure Intake where
  chars : List Char
  /-- Whether that is the whole text. -/
  whole : Bool
deriving DecidableEq, Repr

namespace Intake

/-- The number of bytes that fit into a portion. -/
def portionSize : Nat := 16384

/-- The number of bytes of symbols. -/
def byteCount (ss : List Symbol) : Nat := ss.foldr (fun s n => s.size + n) 0

/-- Whether a portion with room for `room` bytes more does not reach the end of the
character that the stray byte `b` starts in front of `ss`. -/
def outOfReach (room : Nat) (b : UInt8) (ss : List Symbol) : Bool :=
  min room (1 + byteCount ss) < (octetCount? b.toNat).getD 1

/-- Takes in the rest of a text. The characters of the portions before and those of
the portion at hand come in reverse; the latter has room for `room` bytes more. -/
def takeFrom (before portion : List Char) (room : Nat) : List Symbol → Intake
  | [] => ⟨(portion ++ before).reverse, true⟩
  | .char c :: ss =>
    if c.utf8Size ≤ room then
      if isAllowed c then takeFrom before (c :: portion) (room - c.utf8Size) ss
      else ⟨before.reverse, false⟩
    else if isAllowed c then takeFrom (portion ++ before) [c] (portionSize - c.utf8Size) ss
    else ⟨(portion ++ before).reverse, false⟩
  | .stray b :: ss =>
    if outOfReach room b ss then ⟨(portion ++ before).reverse, false⟩
    else ⟨before.reverse, false⟩

/-- Takes in a text. -/
def ofSymbols (ss : List Symbol) : Intake := takeFrom [] [] portionSize ss

theorem takeFrom_map_char {cs : List Char} (h : cs.all isAllowed) (before portion : List Char)
    (room : Nat) :
    takeFrom before portion room (cs.map .char) = ⟨(portion ++ before).reverse ++ cs, true⟩ := by
  induction cs generalizing before portion room with
  | nil => simp [takeFrom]
  | cons c cs ih =>
    simp only [List.all_cons, Bool.and_eq_true] at h
    by_cases hr : c.utf8Size ≤ room <;> simp [takeFrom, hr, h.1, ih h.2]

/-- A text of allowed characters is taken in as a whole. -/
theorem ofSymbols_map_char {cs : List Char} (h : cs.all isAllowed) :
    ofSymbols (cs.map .char) = ⟨cs, true⟩ := by
  simp [ofSymbols, takeFrom_map_char h]

end Intake

end OptionAtlas.Yaml
