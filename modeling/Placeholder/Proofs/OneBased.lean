import Placeholder.Proofs.Indices
import Placeholder.Proofs.JsonScalars
import Placeholder.Proofs.Spelling
import Mathlib.Data.List.TakeWhile

/-!
References by index as numbers. An index is read into a word, yet the number that its digits make decides
where it leads, however many they are: the positions are counted from one, and a number that does not fit
into a word is past the last of them.
-/
namespace Placeholder
open Lexeme

variable {α : Type}

def oneBased (positionals : List (Binding α)) (n : Nat) : Except BindError.Cause (Binding α) :=
  if hzero : n = 0 then .error .invalidExplicitIndex
  else if hend : positionals.length < n then .error (.positionalOutOfRange positionals.length)
  else .ok (positionals.get ⟨n - 1, by omega⟩)

/-- Resolution of the token, whatever stands before and behind it: an error is reported with the token, and a
binding goes with the placeholder that takes the token's place. -/
def Token.ResolvesTo (env : Environment α) (t : Token) (outcome : Except BindError.Cause (Binding α)) : Prop :=
  ∀ used ts, (resolveFrom env used (t :: ts)).result =
    match outcome with
    | .error cause => .error (.ofToken cause t)
    | .ok binding => (resolveFrom env used ts).result.map (Prod.map (.prepend [.implicit t.span] [binding]) id)

/-! Numbers and their digits. -/

private theorem digit_lt_ten {c : Char} (h : c.isDigit) : c.toNat - '0'.toNat < 10 := by
  have hrange := Char.isDigit_iff_toNat.mp h
  simp only [Char.reduceToNat] at hrange ⊢
  omega

private theorem digit_pos {c : Char} (h : c.isDigit) (hzero : c ≠ '0') : 0 < c.toNat - '0'.toNat := by
  have hrange := Char.isDigit_iff_toNat.mp h
  have hne : c.toNat ≠ '0'.toNat := fun heq => hzero (Char.toNat_inj.mp heq)
  simp only [Char.reduceToNat] at hrange hne ⊢
  omega

private theorem toDigits_digit {c : Char} (h : c.isDigit) : Nat.toDigits 10 (c.toNat - '0'.toNat) = [c] := by
  have hrange := Char.isDigit_iff_toNat.mp h
  have hchar : Nat.digitChar (c.toNat - '0'.toNat) = c := by
    apply Char.toNat_inj.mp
    rw [Nat.toNat_digitChar_of_lt_ten (digit_lt_ten h)]
    simp only [Char.reduceToNat] at hrange ⊢
    omega
  rw [Nat.toDigits_of_lt_base (digit_lt_ten h), hchar]

private theorem toDigits_ofDigitChars {n : Nat} (hn : 0 < n) {cs : List Char} (hcs : ∀ c ∈ cs, c.isDigit) :
    Nat.toDigits 10 (Nat.ofDigitChars 10 cs n) = Nat.toDigits 10 n ++ cs := by
  induction cs generalizing n with
  | nil => rw [Nat.ofDigitChars_nil, List.append_nil]
  | cons c cs ih =>
    obtain ⟨hc, hcs⟩ := List.forall_mem_cons.mp hcs
    have hlast : Nat.toDigits 10 (10 * n + (c.toNat - '0'.toNat)) = Nat.toDigits 10 n ++ [c] := by
      rw [← Nat.toDigits_append_toDigits (by decide) hn (digit_lt_ten hc), toDigits_digit hc]
    rw [Nat.ofDigitChars_cons, ih (by omega) hcs, hlast, List.append_assoc, List.singleton_append]

private theorem eq_toDigits_of_natural {digits rest : List Char} (h : Natural digits rest) :
    digits = Nat.toDigits 10 (Nat.ofDigitChars 10 digits 0) := by
  rcases h with rfl | ⟨c, cs, rfl, hzero, hc, hcs, _⟩
  · rfl
  · rw [Nat.ofDigitChars_cons, Nat.mul_zero, Nat.zero_add, toDigits_ofDigitChars (digit_pos hc hzero) hcs,
      toDigits_digit hc, List.singleton_append]

private theorem unsigned_toDigits (n : Nat) : unsigned (Nat.toDigits 10 n) = Nat.toDigits 10 n := by
  unfold unsigned
  apply if_neg
  intro hplus
  have hdigit := Json.isDigit_of_mem_toDigits (List.mem_of_mem_head? hplus)
  revert hdigit
  decide

private theorem isNumeral_toDigits (n : Nat) : IsNumeral (Nat.toDigits 10 n) := by
  unfold IsNumeral
  rw [unsigned_toDigits]
  exact ⟨Nat.toDigits_ne_nil, fun c hc => Json.isDigit_of_mem_toDigits hc⟩

private theorem leadingNumber_toDigits (n : Nat) : leadingNumber (Nat.toDigits 10 n) = n := by
  have hall : (Nat.toDigits 10 n).takeWhile Char.isDigit = Nat.toDigits 10 n :=
    List.takeWhile_eq_self_iff.mpr fun c hc => Json.isDigit_of_mem_toDigits hc
  unfold leadingNumber
  rw [unsigned_toDigits, hall, Nat.ofDigitChars_ten_toDigits]

/-! The references of a query. -/

private theorem Piece.exists_fits_of_mem {pieces : List Piece} {rest : List Char} (h : FitAll pieces rest) {p : Piece}
    (hp : p ∈ pieces) : ∃ after, p.Fits after := by
  induction pieces with
  | nil => cases hp
  | cons q pieces ih =>
    rcases List.mem_cons.mp hp with rfl | hp
    · exact ⟨_, h.1⟩
    · exact ih h.2 hp

/-- A reference by index in a query is written with a number, without sign and without zeros in front. -/
theorem exists_toString_of_mem_lex {query : String} {t : Token} (ht : t ∈ lex query) (hk : t.kind = .explicit) :
    ∃ n : Nat, t.inside = toString n := by
  obtain ⟨p, hp, start, rfl⟩ := Piece.exists_of_mem_tokens ht
  have hfit := Piece.fitAll_of_splits (Piece.splits_split query.toList)
  obtain ⟨after, hafter⟩ := Piece.exists_fits_of_mem hfit hp
  cases p with
  | gap text => cases hk
  | lexeme l =>
    obtain ⟨form, hcovers⟩ := hafter
    have hdigits := eq_toDigits_of_natural (natural_of_covers hcovers hk)
    refine ⟨Nat.ofDigitChars 10 l.inside 0, ?_⟩
    change String.ofList l.inside = _
    rw [← String.toList_inj, String.toList_ofList, Nat.toString_eq_repr, Nat.toList_repr]
    exact hdigits

/-! What an index leads to. -/

section Lookup

variable {env : Environment α} {t : Token}

theorem Token.resolvesTo_of_referent (hk : t.kind = .explicit) {outcome : Except BindError.Cause (Binding α)}
    (h : ∀ used, env.referent used (.index t.inside) = outcome) : t.ResolvesTo env outcome := by
  intro used ts
  cases outcome with
  | error cause => exact result_resolveFrom_error env used ts (reference?_of_explicit hk) (h used)
  | ok binding =>
    rw [result_resolveFrom_ok env used ts (reference?_of_explicit hk) (h used), if_neg nofun]

/-- A numeral that fits into a word leads to the place with its number. -/
theorem referent_of_denotes {digits : String} {n : Nat} (hd : Denotes digits.toList n) (used : Nat) :
    env.referent used (.index digits) = oneBased env.positionals n := by
  have hread := readIndex_eq_ok_iff.mpr hd
  unfold oneBased
  cases n with
  | zero =>
    rw [env.referent_index_of_zero used hread]
    rfl
  | succ n =>
    rw [env.referent_index_of_succ used hread, dif_neg (Nat.succ_ne_zero n)]
    by_cases hend : env.positionals.length < n + 1
    · rw [dif_pos hend, List.getElem?_eq_none (by omega)]
      rfl
    · rw [dif_neg hend, List.getElem?_eq_getElem (by omega)]
      rfl

theorem Token.resolvesTo_of_tooLarge (hk : t.kind = .explicit)
    (hlarge : UInt64.size ≤ leadingNumber t.inside.toList) :
    t.ResolvesTo env (.error (.positionalOutOfRange env.positionals.length)) := by
  apply resolvesTo_of_referent hk
  intro used
  exact env.referent_index_of_tooLarge used (readIndex_eq_tooLarge_iff.mpr hlarge)

theorem Token.resolvesTo_of_malformed (hk : t.kind = .explicit)
    (hfits : leadingNumber t.inside.toList < UInt64.size) (hnum : ¬ IsNumeral t.inside.toList) :
    t.ResolvesTo env (.error .invalidExplicitIndex) := by
  apply resolvesTo_of_referent hk
  intro used
  exact env.referent_index_of_malformed used (readIndex_eq_malformed_iff.mpr ⟨hfits, hnum⟩)

theorem Token.resolvesTo_of_numeral (hk : t.kind = .explicit)
    (hfits : leadingNumber t.inside.toList < UInt64.size) (hnum : IsNumeral t.inside.toList) :
    t.ResolvesTo env (oneBased env.positionals (leadingNumber t.inside.toList)) :=
  resolvesTo_of_referent hk (referent_of_denotes ⟨hnum, rfl, hfits⟩)

/-- A number of any size leads to its place, as there are no more positions than a word can count. -/
theorem Token.resolvesTo_of_toString (hk : t.kind = .explicit) {n : Nat} (hn : t.inside = toString n)
    (hpositions : env.positionals.length < UInt64.size) : t.ResolvesTo env (oneBased env.positionals n) := by
  have hlist : t.inside.toList = Nat.toDigits 10 n := by rw [hn, Nat.toString_eq_repr, Nat.toList_repr]
  have hvalue : leadingNumber t.inside.toList = n := by rw [hlist, leadingNumber_toDigits]
  have hnum : IsNumeral t.inside.toList := by
    rw [hlist]
    exact isNumeral_toDigits n
  rcases Nat.lt_or_ge n UInt64.size with hfits | hlarge
  · rw [← hvalue] at hfits ⊢
    exact resolvesTo_of_numeral hk hfits hnum
  · have hend : oneBased env.positionals n = .error (.positionalOutOfRange env.positionals.length) := by
      unfold oneBased
      rw [dif_neg (by omega), dif_pos (by omega)]
    rw [hend]
    apply resolvesTo_of_tooLarge hk
    rw [hvalue]
    exact hlarge

end Lookup

/-- A reference by index is decided by the number that the digits at its front make. One too great for a word
is out of range, whatever follows the digits; anything else that is not a row of digits, with at most a plus
before it, is invalid; and a row of digits leads to the position with its number. So for the references of a
query, which are numbers of any size without sign and without zeros in front, the word makes no difference. -/
theorem explicit_decided_by_number (env : Environment α) {t : Token} (hk : t.kind = .explicit) :
    (UInt64.size ≤ leadingNumber t.inside.toList →
      t.ResolvesTo env (.error (.positionalOutOfRange env.positionals.length))) ∧
    (leadingNumber t.inside.toList < UInt64.size → ¬ IsNumeral t.inside.toList →
      t.ResolvesTo env (.error .invalidExplicitIndex)) ∧
    (leadingNumber t.inside.toList < UInt64.size → IsNumeral t.inside.toList →
      t.ResolvesTo env (oneBased env.positionals (leadingNumber t.inside.toList))) ∧
    ∀ query, t ∈ lex query → env.positionals.length < UInt64.size →
      ∃ n : Nat, t.inside = toString n ∧ t.ResolvesTo env (oneBased env.positionals n) := by
  refine ⟨Token.resolvesTo_of_tooLarge hk, Token.resolvesTo_of_malformed hk, Token.resolvesTo_of_numeral hk, ?_⟩
  intro query ht hpositions
  obtain ⟨n, hn⟩ := exists_toString_of_mem_lex ht hk
  exact ⟨n, hn, Token.resolvesTo_of_toString hk hn hpositions⟩

/-- Two numbers past the word, of which one stands before a letter, the greatest number in it before a letter,
and a number with a plus and zeros. -/
theorem explicit_decided_at_word_end :
    let env : Environment Nat := ⟨∅, [.scalar 7, .sequence [8, 9]]⟩
    (UInt64.size ≤ leadingNumber "+018446744073709551616x".toList ∧
      Token.ResolvesTo env ⟨.explicit, ":1", "+018446744073709551616x", ⟨0, 2⟩⟩
        (.error (.positionalOutOfRange 2))) ∧
    (leadingNumber "18446744073709551615x".toList < UInt64.size ∧ ¬ IsNumeral "18446744073709551615x".toList ∧
      Token.ResolvesTo env ⟨.explicit, ":1", "18446744073709551615x", ⟨0, 2⟩⟩
        (.error .invalidExplicitIndex)) ∧
    (leadingNumber "+0002".toList < UInt64.size ∧ IsNumeral "+0002".toList ∧
      Token.ResolvesTo env ⟨.explicit, ":1", "+0002", ⟨0, 2⟩⟩ (.ok (.sequence [8, 9]))) ∧
    ⟨.explicit, "$18446744073709551617", "18446744073709551617", ⟨2, 23⟩⟩ ∈ lex "a=$18446744073709551617" ∧
      env.positionals.length < UInt64.size ∧
      ∃ n : Nat, "18446744073709551617" = toString n ∧
        Token.ResolvesTo env ⟨.explicit, "$18446744073709551617", "18446744073709551617", ⟨2, 23⟩⟩
          (oneBased env.positionals n) := by
  intro env
  have hlarge : UInt64.size ≤ leadingNumber "+018446744073709551616x".toList := by decide +kernel
  have hfits : leadingNumber "18446744073709551615x".toList < UInt64.size := by decide +kernel
  have hletter : ¬ IsNumeral "18446744073709551615x".toList := by decide +kernel
  have hsmall : leadingNumber "+0002".toList < UInt64.size := by decide +kernel
  have hnumeral : IsNumeral "+0002".toList := by decide +kernel
  have hsecond : oneBased env.positionals (leadingNumber "+0002".toList) = .ok (.sequence [8, 9]) := by
    decide +kernel
  have hmem : (⟨.explicit, "$18446744073709551617", "18446744073709551617", ⟨2, 23⟩⟩ : Token) ∈
      lex "a=$18446744073709551617" := by decide +kernel
  have hpositions : env.positionals.length < UInt64.size := by decide
  refine ⟨⟨hlarge, ?_⟩, ⟨hfits, hletter, ?_⟩, ⟨hsmall, hnumeral, ?_⟩, hmem, hpositions, ?_⟩
  · exact (explicit_decided_by_number env rfl).1 hlarge
  · exact (explicit_decided_by_number env rfl).2.1 hfits hletter
  · rw [← hsecond]
    exact (explicit_decided_by_number env rfl).2.2.1 hsmall hnumeral
  · exact (explicit_decided_by_number env rfl).2.2.2 _ hmem hpositions

end Placeholder
