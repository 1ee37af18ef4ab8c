/-!
The shortest decimal that stands for a double-precision number: the coarsest decimal grid with a point
that rounds to the number, and on that grid the nearest point.
-/
namespace Placeholder.Decimal

/-- A positive binary number: `mantissa` times two to the power `exponent`. `narrow` says that the next
number below is only half as far away as the next one above. -/
structure Magnitude where
  mantissa : Nat
  exponent : Int
  narrow : Bool
deriving DecidableEq, Repr

inductive Reading
  | nan
  | infinite (negative : Bool)
  | zero (negative : Bool)
  | finite (negative : Bool) (x : Magnitude)
deriving DecidableEq, Repr

/-- Takes a number apart by its 64 bits: a sign, eleven bits of exponent and 52 of fraction. -/
def read (x : Float) : Reading :=
  let bits := x.toBits.toNat
  let negative := bits >>> 63 == 1
  let exponent : Nat := bits >>> 52 % 2048
  let fraction := bits % 1 <<< 52
  if exponent = 2047 then
    if fraction = 0 then .infinite negative else .nan
  else if exponent = 0 then
    if fraction = 0 then .zero negative else .finite negative ⟨fraction, -1074, false⟩
  else .finite negative ⟨1 <<< 52 + fraction, (exponent : Int) - 1075, fraction == 0 && 1 < exponent⟩

/-- Which of two equally near points is taken. -/
inductive Tie
  | up
  | even
deriving DecidableEq, Repr

/-- The decimal number `digits` times ten to the power `exponent`. -/
structure Scaled where
  digits : Nat
  exponent : Int
deriving DecidableEq, Repr

/-- The nearest multiple of ten to the power `k` that rounds to `x`. Every quantity is scaled by four and
by the powers of two and ten that make it a natural number. -/
def onGrid? (tie : Tie) (x : Magnitude) (k : Int) : Option Nat :=
  let scale := Nat.pow 2 x.exponent.toNat * Nat.pow 10 (-k).toNat
  let unit := 4 * Nat.pow 2 (-x.exponent).toNat * Nat.pow 10 k.toNat
  let value := 4 * x.mantissa * scale
  let low := (4 * x.mantissa - if x.narrow then 1 else 2) * scale
  let high := (4 * x.mantissa + 2) * scale
  let rounds (n : Nat) : Bool :=
    low < n * unit && n * unit < high || x.mantissa % 2 = 0 && (n * unit = low || n * unit = high)
  let below := value / unit
  let above := below + 1
  match rounds below, rounds above with
  | false, false => none
  | true, false => some below
  | false, true => some above
  | true, true =>
    match compare (2 * (value - below * unit)) unit with
    | .lt => some below
    | .gt => some above
    | .eq =>
      match tie with
      | .up => some above
      | .even => if below % 2 = 0 then some below else some above

/-- The first grid from `k` downwards, of `n + 1` grids, with a point that rounds to `x`. -/
def search (tie : Tie) (x : Magnitude) : Nat → Int → Scaled
  | 0, k => ⟨(onGrid? tie x k).getD 0, k⟩
  | n + 1, k =>
    match onGrid? tie x k with
    | some digits => ⟨digits, k⟩
    | none => search tie x n (k - 1)

/-- The fewest digits that stand for `x`. The search begins above `x` and ends at the spacing of the least
numbers, where every number has a point. -/
def shortest (tie : Tie) (x : Magnitude) : Scaled :=
  let whole := x.mantissa * Nat.pow 2 x.exponent.toNat / Nat.pow 2 (-x.exponent).toNat
  let first := (Nat.toDigits 10 whole).length
  search tie x (first + 324) first

end Placeholder.Decimal
