import OptionAtlas.Number.Double
import OptionAtlas.Source
import OptionAtlas.Yaml.Character

/-!
# What a plain scalar means

A scalar without quotes may be the word for no value, a boolean, a whole number or
a floating-point number. Everything else is text; digits behind a leading zero are
text too.

## Main definitions

* `isNothing`, `boolean?`, `integer?`, `float?` — the words and numbers.
* `meaning` — what a plain scalar means.
-/

namespace OptionAtlas.Yaml

open OptionAtlas.Number

/-- The words for no value. -/
def isNothing (s : String) : Bool := s ∈ ["null", "Null", "NULL", "~"]

/-- The words for booleans. -/
def boolean? (s : String) : Option Bool :=
  if s ∈ ["true", "True", "TRUE"] then some true
  else if s ∈ ["false", "False", "FALSE"] then some false
  else none

/-! ## Whole numbers -/

/-- The value of digits of a base, if there is at least one and all are digits. -/
def natural? (base : Nat) : List Char → Option Nat
  | [] => none
  | cs => cs.foldlM (fun n c => do
      let d ← hexValue? c
      if d < base then some (n * base + d) else none) 0

/-- Digits behind a base mark, or decimal digits; decimal digits do not start with
a zero unless it stands alone. -/
def magnitude? : List Char → Option Nat
  | '0' :: 'x' :: cs => natural? 16 cs
  | '0' :: 'o' :: cs => natural? 8 cs
  | '0' :: 'b' :: cs => natural? 2 cs
  | '0' :: _ :: _ => none
  | cs => natural? 10 cs

/-- Whether the characters behind an optional sign are at least two decimal digits,
the first of them zero. -/
def isPaddedNumber (cs : List Char) : Bool :=
  let digits := match cs with
    | '-' :: rest => rest
    | '+' :: rest => rest
    | rest => rest
  match digits with
  | '0' :: d :: ds => (d :: ds).all Char.isDigit
  | _ => false

/-- A whole number of at most 128 bits. -/
def integer? (cs : List Char) : Option Found :=
  match cs with
  | '-' :: rest => do
    let n ← magnitude? rest
    if n ≤ Nat.pow 2 63 then some (.integer (-(n : Int)))
    else if n ≤ Nat.pow 2 127 then some (.wideInteger (-(n : Int)) "i128")
    else none
  | '+' :: rest => positive rest
  | _ => positive cs
where
  /-- A number without a minus sign. -/
  positive (cs : List Char) : Option Found := do
    let n ← magnitude? cs
    if n < Nat.pow 2 64 then some (.integer n)
    else if n < Nat.pow 2 128 then some (.wideInteger n "u128")
    else none

/-! ## Floating-point numbers -/

/-- Decimal digits at the front and what follows them. -/
def span (cs : List Char) : List Char × List Char := cs.span Char.isDigit

/-- The exponent that a text consists of: nothing, or a mark, a sign and digits. -/
def exponent? : List Char → Option Int
  | [] => some 0
  | c :: cs =>
    if c = 'e' ∨ c = 'E' then
      match cs with
      | '-' :: ds => (natural? 10 ds).map fun n => -(n : Int)
      | '+' :: ds => (natural? 10 ds).map fun n => (n : Int)
      | ds => (natural? 10 ds).map fun n => (n : Int)
    else none

/-- An unsigned decimal with at least one digit before or after the point. -/
def decimal? (cs : List Char) : Option Decimal :=
  let (whole, rest) := span cs
  let (fraction, rest) := match rest with
    | '.' :: rest => span rest
    | rest => ([], rest)
  do
    let n ← natural? 10 (whole ++ fraction)
    let e ← exponent? rest
    pure ⟨n, e - fraction.length⟩

/-- The text of a finite number: positional, with the fewest digits; a tie goes up. -/
def floatText (negative : Bool) (d : Double) : String :=
  (if negative then "-" else "") ++
    if d.mantissa = 0 then "0.0" else (d.shortest .up).positional

/-- A floating-point number, as it is named in messages. -/
def float? (cs : List Char) : Option String :=
  match cs with
  | '+' :: '-' :: _ => none
  | '+' :: rest => infinity? rest <|> unsigned false rest
  | '-' :: rest => ((infinity? rest).map ("-" ++ ·)) <|> unsigned true rest
  | _ => infinity? cs <|> nan? cs <|> unsigned false cs
where
  /-- The words for infinity. -/
  infinity? (cs : List Char) : Option String :=
    if String.ofList cs ∈ [".inf", ".Inf", ".INF"] then some "inf" else none
  /-- The words for what is no number. -/
  nan? (cs : List Char) : Option String :=
    if String.ofList cs ∈ [".nan", ".NaN", ".NAN"] then some "NaN" else none
  /-- A number without a sign. -/
  unsigned (negative : Bool) (cs : List Char) : Option String := do
    return floatText negative (← Double.ofDecimal (← decimal? cs))

/-! ## The meaning -/

/-- What a plain scalar means. -/
def meaning (s : String) : Found :=
  if s = "" ∨ isNothing s then .nothing "unit value"
  else match boolean? s with
    | some b => .boolean b
    | none =>
      match integer? s.toList with
      | some n => n
      | none =>
        if isPaddedNumber s.toList then .text s
        else match float? s.toList with
          | some written => .float written
          | none => .text s

example : meaning "0x1F" = .integer 31 := by decide +kernel

example : meaning "007" = .text "007" := by decide +kernel

example : meaning "1e3" = .float "1000.0" := by decide +kernel

end OptionAtlas.Yaml
