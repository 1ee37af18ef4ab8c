/-! Indices as they are written: decimal digits, read left to right into a word of 64 bits. -/
namespace Placeholder

inductive IndexError
  /-- The text is not a row of digits, with at most a plus before it. -/
  | malformed
  /-- The number needs more than 64 bits. -/
  | tooLarge
deriving DecidableEq, Repr

/-- Reads digits after the ones that make `n`. Of two errors the one further left counts, and a character
that is no digit counts before the number grows too large. -/
def readDigits (n : Nat) : List Char → Except IndexError Nat
  | [] => .ok n
  | c :: cs =>
    if c.isDigit then
      let next := 10 * n + (c.toNat - '0'.toNat)
      if next < UInt64.size then readDigits next cs else .error .tooLarge
    else .error .malformed

def readIndex (text : List Char) : Except IndexError Nat :=
  let digits := if text.head? = some '+' then text.tail else text
  if digits.isEmpty then .error .malformed else readDigits 0 digits

end Placeholder
