import Placeholder.Decimal.Shortest

/-! Written forms of floating-point numbers, each fixed by a record of choices. -/
namespace Placeholder.Decimal

/-- The choices of a written form. -/
structure Layout where
  /-- Which of two equally near shortest decimals is written. -/
  tie : Tie
  /-- Whether a number whose first digit counts this power of ten is written without an exponent. -/
  isPlain : Int → Bool
  /-- What follows the digits of a whole number written without an exponent. -/
  wholeEnding : String
  nan : String
  infinity : String
  negativeInfinity : String

/-- Digits with the point where the power of ten puts it. -/
def plain (wholeEnding : String) (x : Scaled) : String :=
  let digits := Nat.toDigits 10 x.digits
  let places := (-x.exponent).toNat
  if 0 ≤ x.exponent then
    String.ofList (digits ++ List.replicate x.exponent.toNat '0') ++ wholeEnding
  else if places < digits.length then
    String.ofList (digits.take (digits.length - places) ++ '.' :: digits.drop (digits.length - places))
  else
    String.ofList ('0' :: '.' :: List.replicate (places - digits.length) '0' ++ digits)

/-- The power of ten that the first digit counts. -/
def Scaled.order (x : Scaled) : Int :=
  x.exponent + (Nat.toDigits 10 x.digits).length - 1

def scientific (x : Scaled) : String :=
  let exponent := (if x.order < 0 then "e-" else "e+") ++ toString x.order.natAbs
  match Nat.toDigits 10 x.digits with
  | first :: second :: rest => String.ofList (first :: '.' :: second :: rest) ++ exponent
  | digits => String.ofList digits ++ exponent

def Layout.render (layout : Layout) (x : Float) : String :=
  let sign (negative : Bool) : String := if negative then "-" else ""
  match read x with
  | .nan => layout.nan
  | .infinite false => layout.infinity
  | .infinite true => layout.negativeInfinity
  | .zero negative => sign negative ++ "0" ++ layout.wholeEnding
  | .finite negative m =>
    let decimal := shortest layout.tie m
    sign negative ++
      if layout.isPlain decimal.order then plain layout.wholeEnding decimal else scientific decimal

end Placeholder.Decimal
