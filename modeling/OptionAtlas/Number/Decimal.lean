/-!
# Decimal numerals

A positive decimal is a natural number of digits scaled by a power of ten. It is
written positionally, with at least one digit on both sides of the point, or
scientifically, with one digit before the point.

## Main definitions

* `Decimal` — digits and the power of ten that scales them.
* `Decimal.order` — the power of ten of the first digit.
* `Decimal.positional`, `Decimal.scientific` — the two ways to write one.
-/

namespace OptionAtlas.Number

/-- The number `digits * 10 ^ exponent`. -/
structure Decimal where
  digits : Nat
  exponent : Int
deriving DecidableEq, Repr

namespace Decimal

/-- Removes zeros from the end of the digits, `fuel` of them at most. -/
def stripZeros : Nat → Decimal → Decimal
  | 0, d => d
  | fuel + 1, d =>
    if d.digits ≠ 0 ∧ d.digits % 10 = 0 then stripZeros fuel ⟨d.digits / 10, d.exponent + 1⟩
    else d

/-- The same number without zeros at the end of its digits. -/
def normal (d : Decimal) : Decimal := stripZeros (Nat.toDigits 10 d.digits).length d

/-- The digits as characters. -/
def figures (d : Decimal) : List Char := Nat.toDigits 10 d.digits

/-- The power of ten that the first digit stands for. -/
def order (d : Decimal) : Int := d.exponent + d.figures.length - 1

/-- Written with a point and no exponent, with a digit on both sides of the point. -/
def positional (d : Decimal) : String :=
  let fs := d.figures
  if 0 ≤ d.exponent then
    String.ofList (fs ++ List.replicate d.exponent.toNat '0' ++ ['.', '0'])
  else
    let places := (-d.exponent).toNat
    if places < fs.length then
      String.ofList (fs.take (fs.length - places) ++ '.' :: fs.drop (fs.length - places))
    else
      String.ofList ('0' :: '.' :: List.replicate (places - fs.length) '0' ++ fs)

/-- Written with one digit before the point and a signed exponent; a single digit
stands without a point. -/
def scientific (d : Decimal) : String :=
  let mantissa := match d.figures with
    | [] => []
    | [c] => [c]
    | c :: cs => c :: '.' :: cs
  let mark := if 0 ≤ d.order then ['e', '+'] else ['e', '-']
  String.ofList (mantissa ++ mark ++ Nat.toDigits 10 d.order.natAbs)

example : (Decimal.positional ⟨1234, -2⟩, Decimal.scientific ⟨1, 20⟩) = ("12.34", "1e+20") := by
  decide +kernel

end Decimal

end OptionAtlas.Number
