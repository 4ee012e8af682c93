import OptionAtlas.Number.Decimal

/-!
# Double-precision numbers

A positive double is `mantissa * 2 ^ exponent` with a mantissa of at most 53 bits
and an exponent of at least -1074. A positive fraction is rounded to the nearest
double, and of two equally near ones to that with the even mantissa; beyond the
largest double there is none. In the other direction a double is given by the
shortest decimal that rounds to it, and of several by the nearest; formats differ in
which of two equally near ones they take.

## Main definitions

* `Double.ofRatio` — rounding of a fraction.
* `Double.ofDecimal` — rounding of a decimal.
* `Tie` — a choice between two equally near decimals.
* `Double.shortest` — the shortest decimal.
-/

namespace OptionAtlas.Number

/-- The number `mantissa * 2 ^ exponent`. -/
structure Double where
  mantissa : Nat
  exponent : Int
deriving DecidableEq, Repr

/-- A fraction of natural numbers with a positive denominator. -/
structure Ratio where
  num : Nat
  den : Nat
deriving DecidableEq, Repr

namespace Ratio

/-- The fraction multiplied by `b ^ e`. -/
def scale (r : Ratio) (b : Nat) (e : Int) : Ratio :=
  if 0 ≤ e then ⟨r.num * Nat.pow b e.toNat, r.den⟩ else ⟨r.num, r.den * Nat.pow b (-e).toNat⟩

/-- Whether one fraction is below another. -/
def lt (a b : Ratio) : Bool := a.num * b.den < b.num * a.den

end Ratio

/-- Which of two equally near natural numbers stands for a fraction. -/
inductive Tie where
  /-- The even one. -/
  | even
  /-- The greater one. -/
  | up
deriving DecidableEq, Repr

/-- The nearest natural number. -/
def Tie.nearest (tie : Tie) (r : Ratio) : Nat :=
  let q := r.num / r.den
  let twice := 2 * (r.num % r.den)
  if twice < r.den then q
  else if r.den < twice then q + 1
  else match tie with
    | .even => if q % 2 = 0 then q else q + 1
    | .up => q + 1

namespace Double

/-- The value as a fraction. -/
def ratio (d : Double) : Ratio := Ratio.scale ⟨d.mantissa, 1⟩ 2 d.exponent

/-- The exponent at which a fraction has a mantissa of 53 bits, or the least one. -/
def scaleOf (r : Ratio) : Int :=
  let guess : Int := (Nat.log2 r.num : Int) - Nat.log2 r.den - 52
  let e := if Ratio.lt (r.scale 2 (-guess)) ⟨Nat.pow 2 52, 1⟩ then guess - 1 else guess
  max e (-1074)

/-- The nearest double, if there is one. -/
def ofRatio (r : Ratio) : Option Double :=
  if r.num = 0 then some ⟨0, -1074⟩
  else
    let e := scaleOf r
    let m := Tie.even.nearest (r.scale 2 (-e))
    let d : Double := if m = Nat.pow 2 53 then ⟨Nat.pow 2 52, e + 1⟩ else ⟨m, e⟩
    if 971 < d.exponent then none else some d

/-- The nearest double of a decimal. Decimals far outside the range are decided by
the place of their first digit alone. -/
def ofDecimal (d : Decimal) : Option Double :=
  if d.digits = 0 then some ⟨0, -1074⟩
  else if 400 < d.order then none
  else if d.order < -400 then some ⟨0, -1074⟩
  else ofRatio (Ratio.scale ⟨d.digits, 1⟩ 10 d.exponent)

/-- The product of two doubles, rounded. -/
def mul (a b : Double) : Option Double :=
  ofRatio ⟨a.ratio.num * b.ratio.num, a.ratio.den * b.ratio.den⟩

/-- The quotient of two doubles, rounded. The divisor is not zero. -/
def div (a b : Double) : Option Double :=
  ofRatio ⟨a.ratio.num * b.ratio.den, a.ratio.den * b.ratio.num⟩

/-- Whether a fraction rounds to the positive double `d`. -/
def roundsTo (r : Ratio) (d : Double) : Bool := ofRatio r == some d

/-- The power of ten of the first digit of a positive fraction, found downwards
from `start`. -/
def decimalOrder (r : Ratio) : Nat → Int → Int
  | 0, start => start
  | fuel + 1, start =>
    if Ratio.lt r (Ratio.scale ⟨1, 1⟩ 10 start) then decimalOrder r fuel (start - 1) else start

/-- The nearest decimal with `k` digits that rounds to `d`. -/
def shortestWith (tie : Tie) (d : Double) (order : Int) (k : Nat) : Option Decimal :=
  let e := order - k + 1
  let scaled := d.ratio.scale 10 (-e)
  let below := scaled.num / scaled.den
  let fits (n : Nat) : Bool := n ≠ 0 && roundsTo (Ratio.scale ⟨n, 1⟩ 10 e) d
  match fits below, fits (below + 1) with
  | true, true =>
    some ⟨tie.nearest scaled, e⟩
  | true, false => some ⟨below, e⟩
  | false, true => some ⟨below + 1, e⟩
  | false, false => none

/-- The shortest decimal that rounds to the positive double `d`. Seventeen digits
always suffice. -/
def shortest (tie : Tie) (d : Double) : Decimal :=
  let order := decimalOrder d.ratio 700 310
  match (List.range 17).findSome? fun k => shortestWith tie d order (k + 1) with
  | some x => x.normal
  | none => ⟨0, 0⟩

example : ((ofDecimal ⟨1, -1⟩).map (shortest .up), (ofDecimal ⟨1, 20⟩).map (shortest .up),
    (ofDecimal ⟨5, -324⟩).map (shortest .up)) =
      (some ⟨1, -1⟩, some ⟨1, 20⟩, some ⟨5, -324⟩) := by
  decide +kernel

example : ((ofRatio ⟨Nat.pow 2 52 + 1, 4⟩).map (shortest .even),
    (ofRatio ⟨Nat.pow 2 52 + 1, 4⟩).map (shortest .up)) =
      (some ⟨11258999068426242, -1⟩, some ⟨11258999068426243, -1⟩) := by
  decide +kernel

end Double

end OptionAtlas.Number
