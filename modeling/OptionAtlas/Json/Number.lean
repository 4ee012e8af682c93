import OptionAtlas.Number.Double
import OptionAtlas.Source
import OptionAtlas.Text.Symbol

/-!
# JSON numbers

A number is an optional minus sign, digits without a leading zero, an optional
fraction and an optional exponent. Whole numbers of at most 64 bits are exact. Any
other number is a double, reached from its leading digits by one multiplication or
division with a power of ten; one that is too large is refused.

## Main definitions

* `Numeral` — the parts of a number.
* `Numeral.read` — reads one from the front of a text.
* `Numeral.found` — its value, as it is named in messages.
-/

namespace OptionAtlas.Json

open OptionAtlas.Text OptionAtlas.Number

/-- The parts of a number. -/
structure Numeral where
  negative : Bool
  whole : List Nat
  fraction : List Nat
  /-- Whether the exponent is negative, and its digits. -/
  power : Option (Bool × List Nat)
deriving DecidableEq, Repr

namespace Numeral

/-- The digits at the front of a text. -/
def digits : List Symbol → List Nat × List Symbol
  | .char c :: rest =>
    if c.isDigit then
      let (ds, rest') := digits rest
      ((c.toNat - '0'.toNat) :: ds, rest')
    else ([], .char c :: rest)
  | rest => ([], rest)

/-- The exponent at the front of a text, if there is one; `none` if it has no digits. -/
def readPower : List Symbol → Option (Option (Bool × List Nat) × List Symbol)
  | .char c :: rest =>
    if c = 'e' ∨ c = 'E' then
      let (negative, rest) : Bool × List Symbol := match rest with
        | .char '+' :: rest => (false, rest)
        | .char '-' :: rest => (true, rest)
        | rest => (false, rest)
      match digits rest with
      | ([], _) => none
      | (ds, rest) => some (some (negative, ds), rest)
    else some (none, .char c :: rest)
  | rest => some (none, rest)

/-- The fraction at the front of a text, if there is one; `none` if it has no digits. -/
def readFraction : List Symbol → Option (List Nat × List Symbol)
  | .char '.' :: rest =>
    match digits rest with
    | ([], _) => none
    | (ds, rest) => some (ds, rest)
  | rest => some ([], rest)

/-- The whole digits at the front of a text; a zero stands alone. -/
def readWhole (s : List Symbol) : Option (List Nat × List Symbol) :=
  match digits s with
  | ([], _) => none
  | (0 :: _ :: _, _) => none
  | (ds, rest) => some (ds, rest)

/-- The number at the front of a text. -/
def read (s : List Symbol) : Option (Numeral × List Symbol) := do
  let (negative, s) : Bool × List Symbol := match s with
    | .char '-' :: rest => (true, rest)
    | _ => (false, s)
  let (whole, s) ← readWhole s
  let (fraction, s) ← readFraction s
  let (power, s) ← readPower s
  pure (⟨negative, whole, fraction, power⟩, s)

/-! ## The value -/

/-- Collects leading digits as long as they fit 64 bits; returns them as a number,
with the number of digits used and of digits left over. -/
def collect (start : Nat) : List Nat → Nat × Nat × Nat
  | [] => (start, 0, 0)
  | d :: ds =>
    if start * 10 + d < Nat.pow 2 64 then
      let (n, used, left) := collect (start * 10 + d) ds
      (n, used + 1, left)
    else (start, 0, ds.length + 1)

/-- The double for a power of ten. -/
def tenTo (k : Nat) : Double := (Double.ofDecimal ⟨1, k⟩).getD ⟨0, 0⟩

/-- Scales a double by a power of ten; `none` if it becomes too large. A power
below -308 is taken in several divisions. -/
def scaleTen : Nat → Double → Int → Option Double
  | 0, _, _ => none
  | fuel + 1, f, e =>
    if e.natAbs ≤ 308 then
      if 0 ≤ e then f.mul (tenTo e.toNat) else f.div (tenTo e.natAbs)
    else if f.mantissa = 0 then some f
    else if 0 ≤ e then none
    else do scaleTen fuel (← f.div (tenTo 308)) (e + 308)

/-- The text of a double: positional from the fifth place after the point to
sixteen digits before it, and scientific outside; a tie goes to the even digit. -/
def floatText (negative : Bool) (f : Double) : String :=
  let sign := if negative then "-" else ""
  if f.mantissa = 0 then sign ++ "0.0"
  else
    let d := f.shortest .even
    sign ++ if -5 ≤ d.order ∧ d.order ≤ 15 then d.positional else d.scientific

/-- The double of a number that is not a whole number of 64 bits. -/
def double (n : Numeral) : Option Double :=
  let (lead, _, left) := collect 0 n.whole
  let (significand, used, _) := collect lead n.fraction
  let shift : Int := (left : Int) - used
  match n.power with
  | none => scale significand shift
  | some (negative, ds) =>
    let p : Nat := ds.foldl (fun a d => a * 10 + d) 0
    if Nat.pow 2 31 ≤ p then
      if significand ≠ 0 ∧ negative = false then none else some ⟨0, 0⟩
    else scale significand (if negative then shift - p else shift + p)
where
  /-- A significand scaled by a power of ten. -/
  scale (significand : Nat) (e : Int) : Option Double := do
    scaleTen 16 (← Double.ofRatio ⟨significand, 1⟩) e

/-- The value as it is named in messages; `none` if it is too large. -/
def found (n : Numeral) : Option Found :=
  let (lead, _, left) := collect 0 n.whole
  if left = 0 ∧ n.fraction = [] ∧ n.power = none ∧
      (n.negative = false ∨ (0 < lead ∧ lead ≤ Nat.pow 2 63)) then
    some (.integer (if n.negative then -(lead : Int) else lead))
  else n.double.map fun f => .float (floatText n.negative f)

end Numeral

end OptionAtlas.Json
