import Placeholder.Bound.Index

/-!
What a text denotes as an index: a number in decimal digits, of any length, as long as it fits into a word.
-/
namespace Placeholder

def unsigned (text : List Char) : List Char :=
  if text.head? = some '+' then text.tail else text

def IsNumeral (text : List Char) : Prop :=
  unsigned text ≠ [] ∧ ∀ c ∈ unsigned text, c.isDigit

/-- The number that the digits at the front make; zero if there are none. -/
def leadingNumber (text : List Char) : Nat :=
  Nat.ofDigitChars 10 ((unsigned text).takeWhile Char.isDigit) 0

/-- The text is a numeral of the number, which fits into a word. -/
structure Denotes (text : List Char) (n : Nat) : Prop where
  numeral : IsNumeral text
  value : leadingNumber text = n
  fits : n < UInt64.size

/-- More digits never make a number smaller. -/
theorem le_ofDigitChars (n : Nat) (digits : List Char) : n ≤ Nat.ofDigitChars 10 digits n := by
  induction digits generalizing n with
  | nil => exact Nat.le_refl n
  | cons c digits ih =>
    rw [Nat.ofDigitChars_cons]
    have := ih (10 * n + (c.toNat - '0'.toNat))
    omega

private theorem readDigits_eq {n : Nat} (hn : n < UInt64.size) (cs : List Char) :
    readDigits n cs =
      if UInt64.size ≤ Nat.ofDigitChars 10 (cs.takeWhile Char.isDigit) n then .error .tooLarge
      else if cs.all Char.isDigit then .ok (Nat.ofDigitChars 10 (cs.takeWhile Char.isDigit) n)
      else .error .malformed := by
  induction cs generalizing n with
  | nil =>
    have hnil : Nat.ofDigitChars 10 [] n = n := rfl
    rw [List.takeWhile_nil, hnil, if_neg (Nat.not_le.mpr hn)]
    rfl
  | cons c cs ih =>
    rw [readDigits, List.takeWhile_cons, List.all_cons]
    by_cases hc : c.isDigit
    · simp only [hc, if_true, Bool.true_and, Nat.ofDigitChars_cons]
      by_cases hnext : 10 * n + (c.toNat - '0'.toNat) < UInt64.size
      · rw [if_pos hnext, ih hnext]
      · have hle := le_ofDigitChars (10 * n + (c.toNat - '0'.toNat)) (cs.takeWhile Char.isDigit)
        rw [if_neg hnext, if_pos (Nat.le_trans (Nat.not_lt.mp hnext) hle)]
    · have hnil : Nat.ofDigitChars 10 [] n = n := rfl
      simp only [hc, Bool.false_eq_true, if_false, Bool.false_and, hnil]
      rw [if_neg (Nat.not_le.mpr hn)]

section Read

variable {text : List Char}

private theorem readIndex_eq : readIndex text =
    if UInt64.size ≤ leadingNumber text then .error .tooLarge
    else if !(unsigned text).isEmpty && (unsigned text).all Char.isDigit then .ok (leadingNumber text)
    else .error .malformed := by
  change (if (unsigned text).isEmpty then _ else readDigits 0 (unsigned text)) = _
  rw [leadingNumber, readDigits_eq (by decide)]
  cases h : unsigned text with
  | nil => rfl
  | cons c cs => rfl

theorem isNumeral_iff :
    (!(unsigned text).isEmpty && (unsigned text).all Char.isDigit) = true ↔ IsNumeral text := by
  simp [IsNumeral]

instance : Decidable (IsNumeral text) :=
  decidable_of_iff _ isNumeral_iff

theorem readIndex_eq_tooLarge_iff :
    readIndex text = .error .tooLarge ↔ UInt64.size ≤ leadingNumber text := by
  rw [readIndex_eq]
  split
  · simp [*]
  · split <;> simp [*]

theorem readIndex_eq_ok_iff {n : Nat} : readIndex text = .ok n ↔ Denotes text n := by
  rw [readIndex_eq]
  constructor
  · intro h
    split at h
    · cases h
    · next hfits =>
      split at h
      · next hnum =>
        cases h
        exact ⟨isNumeral_iff.mp hnum, rfl, Nat.not_le.mp hfits⟩
      · cases h
  · rintro ⟨hnum, rfl, hfits⟩
    rw [if_neg (Nat.not_le.mpr hfits), if_pos (isNumeral_iff.mpr hnum)]

theorem readIndex_eq_malformed_iff :
    readIndex text = .error .malformed ↔ leadingNumber text < UInt64.size ∧ ¬ IsNumeral text := by
  rw [readIndex_eq, ← isNumeral_iff]
  constructor
  · intro h
    split at h
    · cases h
    · next hfits =>
      split at h
      · cases h
      · next hnum => exact ⟨Nat.not_le.mp hfits, hnum⟩
  · rintro ⟨hfits, hnum⟩
    rw [if_neg (Nat.not_le.mpr hfits), if_neg hnum]

end Read
end Placeholder
