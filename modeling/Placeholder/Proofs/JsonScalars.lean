import Placeholder.Json.Reader
import Placeholder.Json.Writer
import Placeholder.Proofs.Grammar
import Placeholder.Proofs.Indices

/-!
Strings and integers in JSON are read back as they are written, whatever text may follow them.
-/
namespace Placeholder.Json
open Lexeme

/-- What is read one by one, each together with what is read after it, is read to the last. -/
theorem read_flatMap {α : Type} {read : List Char → Option (List α × List Char)} {write : α → List Char}
    (hstep : ∀ a cs, read (write a ++ cs) = (read cs).map fun (as, rest) => (a :: as, rest))
    {last rest : List Char} (hlast : read last = some ([], rest)) (as : List α) :
    read (as.flatMap write ++ last) = some (as, rest) := by
  induction as with
  | nil => exact hlast
  | cons a as ih =>
    rw [List.flatMap_cons, List.append_assoc, hstep, ih]
    rfl

/-! Strings. -/

private theorem readQuoted_backslash {cs rest : List Char} {c : Char} (h : unescape? cs = some (c, rest)) :
    readQuoted ('\\' :: cs) = (readQuoted rest).map fun (text, rest) => (c :: text, rest) := by
  rw [readQuoted]
  simp only [Char.reduceEq, if_false, if_true]
  split
  · next heq =>
    rw [h] at heq
    cases heq
    rfl
  · next heq =>
    rw [h] at heq
    cases heq

theorem hexDigit?_digitChar {n : Nat} (h : n < 16) : hexDigit? (Nat.digitChar n) = some n := by
  have hall : ∀ n < 16, hexDigit? (Nat.digitChar n) = some n := by decide
  exact hall n h

private theorem unescape?_control {c : Char} (h : c.toNat < 32) (rest : List Char) :
    unescape? ('u' :: '0' :: '0' :: Nat.digitChar (c.toNat / 16) :: Nat.digitChar (c.toNat % 16) :: rest) =
      some (c, rest) := by
  have hzero : hexDigit? '0' = some 0 := by decide
  have hhigh : hexDigit? (Nat.digitChar (c.toNat / 16)) = some (c.toNat / 16) := hexDigit?_digitChar (by omega)
  have hlow : hexDigit? (Nat.digitChar (c.toNat % 16)) = some (c.toNat % 16) := hexDigit?_digitChar (by omega)
  have hunit : codeUnit? ('0' :: '0' :: Nat.digitChar (c.toNat / 16) :: Nat.digitChar (c.toNat % 16) :: rest) =
      some (c.toNat, rest) := by
    simp only [codeUnit?, hzero, hhigh, hlow, bind, pure, Option.bind_some, Option.some.injEq, Prod.mk.injEq,
      and_true]
    omega
  simp only [unescape?, if_true, unicodeEscape?, hunit]
  rw [if_pos (by omega), Char.ofNat_toNat]

private theorem readQuoted_escape (c : Char) (rest : List Char) :
    readQuoted (escape c ++ rest) = (readQuoted rest).map fun (text, rest) => (c :: text, rest) := by
  unfold escape
  split
  case h_8 hquote hbackslash _ _ _ _ _ =>
    split
    · next hcontrol => exact readQuoted_backslash (unescape?_control hcontrol rest)
    · next hcontrol =>
      rw [List.cons_append, List.nil_append, readQuoted]
      rw [if_neg hquote, if_neg hbackslash, if_neg hcontrol]
  all_goals exact readQuoted_backslash rfl

theorem readQuoted_flatMap_escape (text rest : List Char) :
    readQuoted (text.flatMap escape ++ '\x22' :: rest) = some (text, rest) := by
  have hlast : readQuoted ('\x22' :: rest) = some ([], rest) := by
    rw [readQuoted]
    rfl
  exact read_flatMap readQuoted_escape hlast text

/-! Integers. -/

def continuesInteger (c : Char) : Bool :=
  c.isDigit || c == '.' || c == 'e' || c == 'E'

/-- The integer is one of 64 bits, with a sign or without. -/
def IsWord (n : Int) : Prop :=
  Int64.minValue.toInt ≤ n ∧ n < UInt64.size

theorem isWord_toInt (n : Int64) : IsWord n.toInt :=
  ⟨n.minValue_le_toInt, Int.lt_trans n.toInt_lt (by decide)⟩

private theorem exists_toDigits_eq_cons {n : Nat} (hn : 0 < n) : ∃ c cs, Nat.toDigits 10 n = c :: cs ∧ c ≠ '0' := by
  induction n using Nat.strongRecOn with
  | ind n ih =>
    by_cases hlt : n < 10
    · rw [Nat.toDigits_of_lt_base hlt]
      exact ⟨_, [], rfl, by simpa using Nat.ne_of_gt hn⟩
    · obtain ⟨c, cs, hcons, hc⟩ := ih (n / 10) (by omega) (by omega)
      rw [Nat.toDigits_of_base_le (by decide) (Nat.not_lt.mp hlt), hcons]
      exact ⟨c, _, rfl, hc⟩

theorem isDigit_of_mem_toDigits {n : Nat} {c : Char} (hc : c ∈ Nat.toDigits 10 n) : c.isDigit :=
  Nat.isDigit_of_mem_toDigits (by decide) (by decide) hc

private theorem natural_toDigits (n : Nat) {rest : List Char} (h : Stops Char.isDigit rest) :
    Natural (Nat.toDigits 10 n) rest := by
  rcases Nat.eq_zero_or_pos n with rfl | hn
  · exact Or.inl rfl
  · obtain ⟨c, cs, hcons, hc⟩ := exists_toDigits_eq_cons hn
    have hdigits : ∀ d ∈ c :: cs, d.isDigit := fun d hd => isDigit_of_mem_toDigits (hcons ▸ hd)
    rw [List.forall_mem_cons] at hdigits
    exact Or.inr ⟨c, cs, hcons, hc, hdigits.1, hdigits.2, h⟩

/-- Digits whose number fits 64 bits are gathered to the last. -/
theorem gather_eq {n : Nat} {digits : List Char} (h : Nat.ofDigitChars 10 digits n < UInt64.size) :
    Numeral.gather n digits = (Nat.ofDigitChars 10 digits n, []) := by
  induction digits generalizing n with
  | nil => rfl
  | cons c digits ih =>
    rw [Nat.ofDigitChars_cons] at h ⊢
    have hle := le_ofDigitChars (10 * n + (c.toNat - '0'.toNat)) digits
    rw [Numeral.gather, if_pos (Nat.lt_of_le_of_lt hle h), ih h]

private theorem gather_toDigits {n : Nat} (h : n < UInt64.size) : Numeral.gather 0 (Nat.toDigits 10 n) = (n, []) := by
  have heq : Nat.ofDigitChars 10 (Nat.toDigits 10 n) 0 = n := Nat.ofDigitChars_ten_toDigits
  rw [gather_eq (by rw [heq]; exact h), heq]

/-- The characters of an integer: a minus if it is negative, and the digits. -/
theorem toList_toString (n : Int) :
    (toString n).toList = (if n < 0 then ['-'] else []) ++ Nat.toDigits 10 n.natAbs := by
  cases n with
  | ofNat n =>
    have hneg : ¬ (Int.ofNat n < 0) := Int.not_lt.mpr (Int.natCast_nonneg n)
    rw [if_neg hneg]
    exact Nat.toList_repr
  | negSucc n =>
    rw [if_pos (Int.negSucc_lt_zero n), Int.toString_eq_repr, Int.repr, String.toList_append, Nat.toList_repr]
    rfl

def integerNumeral (n : Int) : Numeral :=
  ⟨decide (n < 0), Nat.toDigits 10 n.natAbs, [], none⟩

private theorem fraction?_of_stops {rest : List Char} (h : Stops continuesInteger rest) :
    fraction? rest = some ([], rest) := by
  unfold fraction?
  split
  · exact absurd (h '.' rfl) (by decide)
  · rfl

private theorem exponent?_of_stops {rest : List Char} (h : Stops continuesInteger rest) :
    exponent? rest = some (none, rest) := by
  cases rest with
  | nil => rfl
  | cons c cs =>
    have hc : ¬ (c = 'e' ∨ c = 'E') := by
      rintro (rfl | rfl)
      · exact absurd (h 'e' rfl) (by decide)
      · exact absurd (h 'E' rfl) (by decide)
    unfold exponent?
    exact if_neg hc

private theorem head?_toString (n : Int) (rest : List Char) :
    (((toString n).toList ++ rest).head? == some '-') = decide (n < 0) := by
  rw [toList_toString]
  split
  · next hn => simp [hn]
  · next hn =>
    obtain ⟨c, cs, hcons⟩ := List.exists_cons_of_ne_nil (Nat.toDigits_ne_nil (n := n.natAbs) (b := 10))
    have hc : c.isDigit := isDigit_of_mem_toDigits (hcons ▸ List.mem_cons_self)
    have hminus : c ≠ '-' := by
      rintro rfl
      exact absurd hc (by decide)
    simp [hcons, hn, hminus]

private theorem read?_integer (n : Int) {rest : List Char} (h : Stops continuesInteger rest) :
    Numeral.read? ((toString n).toList ++ rest) = some (integerNumeral n, rest) := by
  have hdigit : Stops Char.isDigit rest := by
    intro c hc
    have hcontinues := h c hc
    simp only [continuesInteger, Bool.or_eq_false_iff] at hcontinues
    exact hcontinues.1.1.1
  have hnatural := natural?_eq_some_iff.mpr ⟨rfl, natural_toDigits n.natAbs hdigit⟩
  have hunsigned : (if decide (n < 0) then ((toString n).toList ++ rest).tail else (toString n).toList ++ rest) =
      Nat.toDigits 10 n.natAbs ++ rest := by
    rw [toList_toString]
    by_cases hn : n < 0 <;> simp [hn]
  simp only [Numeral.read?, head?_toString, hunsigned, hnatural, fraction?_of_stops h, exponent?_of_stops h,
    bind, pure, Option.bind_some, integerNumeral]

private theorem toNumber?_integerNumeral {n : Int} (h : IsWord n) :
    (integerNumeral n).toNumber? = some (.integer n) := by
  obtain ⟨hlow, hhigh⟩ := h
  have hmin : Int64.minValue.toInt = -9223372036854775808 := by decide
  have hsize : UInt64.size = 18446744073709551616 := rfl
  have hfits : n.natAbs < UInt64.size := by omega
  simp only [Numeral.toNumber?, integerNumeral, gather_toDigits hfits, and_self, if_true]
  by_cases hn : n < 0
  · rw [if_pos (by simpa using hn), if_neg (by omega)]
    congr 2
    omega
  · rw [if_neg (by simpa using hn)]
    congr 2
    omega

theorem readNumber_integer {n : Int} (hn : IsWord n) {rest : List Char} (h : Stops continuesInteger rest) :
    readNumber ((toString n).toList ++ rest) = some (.number (.integer n), rest) := by
  rw [readNumber, read?_integer n h]
  simp only [toNumber?_integerNumeral hn, Option.map_some]

end Placeholder.Json
