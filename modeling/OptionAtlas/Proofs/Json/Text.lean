import Mathlib.Tactic.SplitIfs
import OptionAtlas.Json.Printer
import OptionAtlas.Json.Reader

/-!
# Strings of JSON

Each character of a string is read from the form in which it is written, escaped or not,
and the first quote that is not escaped ends the string. So a string is read back
whatever characters it has and whatever stands behind it.

## Main statements

* `stringBody_escaped` — one written character.
* `readString_flatMap_escaped` — a whole string.
-/

namespace OptionAtlas.Json

open OptionAtlas.Text

/-! ## Characters -/

theorem hexValue?_hexDigit {n : Nat} (h : n < 16) : hexValue? (.char (hexDigit n)) = some n := by
  have all : ∀ n, n < 16 → hexValue? (.char (hexDigit n)) = some n := by decide
  exact all n h

/-- The escape of a control character stands for this character. -/
theorem escape_control {c : Char} (h : c.toNat < 0x20) (s : List Symbol) :
    escape (['u', '0', '0', hexDigit (c.toNat / 16), hexDigit (c.toNat % 16)].map .char ++ s) =
      some (c, s) := by
  have hzero : hexValue? (.char '0') = some 0 := by decide
  have hhigh := hexValue?_hexDigit (n := c.toNat / 16) (by omega)
  have hlow := hexValue?_hexDigit (n := c.toNat % 16) (by omega)
  have hvalue : (0 * 16 + 0) * 256 + c.toNat / 16 * 16 + c.toNat % 16 = c.toNat := by omega
  have hunit : hexUnit (['0', '0', hexDigit (c.toNat / 16), hexDigit (c.toNat % 16)].map .char
      ++ s) = some (c.toNat, s) := by
    simp only [List.map_cons, List.map_nil, List.cons_append, List.nil_append, hexUnit, hzero,
      hhigh, hlow, Option.bind_eq_bind, Option.bind_some, hvalue]
    rfl
  have hsmall : ¬ (0xDC00 ≤ c.toNat ∧ c.toNat ≤ 0xDFFF) := by omega
  have hsmall' : ¬ (0xD800 ≤ c.toNat ∧ c.toNat ≤ 0xDBFF) := by omega
  change unicodeEscape (['0', '0', hexDigit (c.toNat / 16), hexDigit (c.toNat % 16)].map .char
    ++ s) = some (c, s)
  simp only [unicodeEscape, hunit, Option.bind_eq_bind, Option.bind_some, if_neg hsmall,
    if_neg hsmall', Char.ofNat_toNat]
  rfl

/-- The body of a string that starts with an escape. -/
theorem stringBody_of_escape {c : Char} {s rest : List Symbol} (h : escape s = some (c, rest))
    (fuel : Nat) :
    stringBody (fuel + 1) (.char '\\' :: s) =
      (stringBody fuel rest).map fun r => (c :: r.1, r.2) := by
  simp only [stringBody, h, Option.bind_eq_bind, Option.bind_some]
  cases stringBody fuel rest <;> rfl

/-- A written character is read as one character. -/
theorem stringBody_escaped (c : Char) (s : List Symbol) (fuel : Nat) :
    stringBody (fuel + 1) ((escaped c).map .char ++ s) =
      (stringBody fuel s).map fun r => (c :: r.1, r.2) := by
  unfold escaped
  split_ifs with hquote hslash hb ht hn hf hr hcontrol
  · subst hquote; exact stringBody_of_escape rfl fuel
  · subst hslash; exact stringBody_of_escape rfl fuel
  · subst hb; exact stringBody_of_escape rfl fuel
  · subst ht; exact stringBody_of_escape rfl fuel
  · subst hn; exact stringBody_of_escape rfl fuel
  · subst hf; exact stringBody_of_escape rfl fuel
  · subst hr; exact stringBody_of_escape rfl fuel
  · exact stringBody_of_escape (escape_control hcontrol s) fuel
  · simp only [List.map_cons, List.map_nil, List.cons_append, List.nil_append]
    rw [stringBody]
    · simp only [if_neg hcontrol]
      cases stringBody fuel s <;> rfl
    · simpa using hquote
    · simpa using hslash

/-! ## Strings -/

/-- Every character takes at least one symbol, so the length of the text is fuel enough. -/
theorem length_le_length_flatMap_escaped (cs : List Char) :
    cs.length ≤ (cs.flatMap escaped).length := by
  induction cs with
  | nil => simp
  | cons c cs ih =>
      have hpos : 0 < (escaped c).length := by
        unfold escaped
        split_ifs <;> simp
      rw [List.flatMap_cons, List.length_append, List.length_cons]
      omega

theorem stringBody_flatMap_escaped (cs : List Char) (rest : List Symbol) {fuel : Nat}
    (hfuel : cs.length < fuel) :
    stringBody fuel ((cs.flatMap escaped).map .char ++ .char '"' :: rest) = some (cs, rest) := by
  induction cs generalizing fuel with
  | nil =>
      obtain ⟨fuel, rfl⟩ : ∃ n, fuel = n + 1 := ⟨fuel - 1, by omega⟩
      rfl
  | cons c cs ih =>
      obtain ⟨fuel, rfl⟩ : ∃ n, fuel = n + 1 := ⟨fuel - 1, by omega⟩
      have hfuel' : cs.length < fuel := by simpa using hfuel
      rw [List.flatMap_cons, List.map_append, List.append_assoc, stringBody_escaped, ih hfuel']
      rfl

/-- A string is read back, whatever stands behind its closing quote. -/
theorem readString_flatMap_escaped (s : String) (rest : List Symbol) :
    readString ((s.toList.flatMap escaped).map .char ++ .char '"' :: rest) = .ok (s, rest) := by
  have hlength := length_le_length_flatMap_escaped s.toList
  rw [readString, stringBody_flatMap_escaped]
  · simp only [String.ofList_toList]
  · rw [List.length_append, List.length_map, List.length_cons]
    omega

end OptionAtlas.Json
