import Placeholder.Json.Basic
import Placeholder.Text.Digits

/-! Numbers in JSON: how they are written, and which numbers they stand for. -/
namespace Placeholder.Json

/-- A number as it is written. A number without a point has no fraction digits. -/
structure Numeral where
  negative : Bool
  whole : List Char
  fraction : List Char
  /-- The sign of the exponent, true for minus, and its digits. -/
  exponent : Option (Bool × List Char)
deriving DecidableEq, Repr

def digits? (cs : List Char) : Option (List Char × List Char) :=
  if cs.takeWhile Char.isDigit = [] then none
  else some (cs.takeWhile Char.isDigit, cs.dropWhile Char.isDigit)

/-- The digits after a point, none if there is no point. -/
def fraction? : List Char → Option (List Char × List Char)
  | '.' :: cs => digits? cs
  | cs => some ([], cs)

/-- The sign and digits after the letter e of either case, nothing if there is no such letter. -/
def exponent? : List Char → Option (Option (Bool × List Char) × List Char)
  | [] => some (none, [])
  | c :: cs =>
    if c = 'e' ∨ c = 'E' then
      match cs with
      | '-' :: cs => (digits? cs).map fun (digits, rest) => (some (true, digits), rest)
      | '+' :: cs => (digits? cs).map fun (digits, rest) => (some (false, digits), rest)
      | cs => (digits? cs).map fun (digits, rest) => (some (false, digits), rest)
    else some (none, c :: cs)

namespace Numeral

def read? (cs : List Char) : Option (Numeral × List Char) := do
  let negative := cs.head? == some '-'
  let (whole, rest) ← Text.natural? (if negative then cs.tail else cs)
  let (fraction, rest) ← fraction? rest
  let (exponent, rest) ← exponent? rest
  return (⟨negative, whole, fraction, exponent⟩, rest)

/-- Appends digits to a number as long as it fits 64 bits. Gives the digits that are left over too. -/
def gather (n : Nat) : List Char → Nat × List Char
  | [] => (n, [])
  | c :: cs =>
    let next := 10 * n + (c.toNat - '0'.toNat)
    if next < UInt64.size then gather next cs else (n, c :: cs)

/-- A number times a power of ten, none if it is too large. Very small powers are applied in two steps, and
no number is left of a power that is smaller still. -/
def scale? (x : Float) (exponent : Int) : Option Float :=
  let power (n : Nat) : Float := .ofScientific 1 false n
  if 308 < exponent then
    if x == 0 then some x else none
  else if 0 ≤ exponent then
    let y := x * power exponent.toNat
    if y.isInf then none else some y
  else if -308 ≤ exponent then some (x / power (-exponent).toNat)
  else if -616 ≤ exponent then some (x / power 308 / power (-308 - exponent).toNat)
  else some 0

def exponentValue (n : Numeral) : Int :=
  match n.exponent with
  | none => 0
  | some (false, digits) => Nat.ofDigitChars 10 digits 0
  | some (true, digits) => -Nat.ofDigitChars 10 digits 0

/-- The number that is written, none if it is too large. An integer of 64 bits is exact, save that minus
zero is real. Every other number is a significand of at most 64 bits, the digits beyond which count as
zeros, times a power of ten. -/
def toNumber? (n : Numeral) : Option Number :=
  let sign (x : Float) : Float := if n.negative then -x else x
  let (leading, beyond) := gather 0 n.whole
  if n.fraction = [] ∧ n.exponent = none ∧ beyond = [] then
    if n.negative then
      if leading = 0 ∨ -(leading : Int) < Int64.minValue.toInt then some (.real (sign (.ofNat leading)))
      else some (.integer (-leading))
    else some (.integer leading)
  else
    let (significand, dropped) := gather leading n.fraction
    let exponent : Int := beyond.length - (n.fraction.length - dropped.length : Nat) + n.exponentValue
    (scale? (.ofNat significand) exponent).map fun x => .real (sign x)

end Numeral
end Placeholder.Json
