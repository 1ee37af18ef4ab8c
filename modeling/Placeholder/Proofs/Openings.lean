import Placeholder.Proofs.Grammar

/-!
Where each form is found. The first two characters of a text leave one form that may begin there, so the
order in which the forms are tried does not matter.
-/
namespace Placeholder

namespace Lexeme

private theorem le_toNat_of_isAlpha {c : Char} (h : c.isAlpha) : 65 ≤ c.toNat := by
  rcases Bool.or_eq_true_iff.mp h with hu | hl
  · have hval : 'A'.val ≤ c.val := (of_decide_eq_true hu).1
    exact UInt32.le_iff_toNat_le.mp hval
  · have hval : 'a'.val ≤ c.val := of_decide_eq_true (Bool.and_eq_true_iff.mp hl).1
    exact Nat.le_trans (by decide) (UInt32.le_iff_toNat_le.mp hval)

private theorem isDigit_of_isNameStart {c : Char} (h : isNameStart c) : c.isDigit = false := by
  rw [Bool.eq_false_iff]
  intro hd
  have hr := Char.isDigit_iff_toNat.mp hd
  simp only [Char.reduceToNat] at hr
  have hl : Unicode.isLetter c = c.isAlpha := Unicode.isLetter_of_lt (by omega)
  rw [isNameStart, hl, Bool.or_eq_true, beq_iff_eq] at h
  rcases h with rfl | ha
  · exact absurd hd (by decide)
  · have hu := le_toNat_of_isAlpha ha
    omega

theorem exists_cons_of_natural {digits rest : List Char} (h : Natural digits rest) :
    ∃ d ds, digits = d :: ds ∧ d.isDigit := by
  rcases h with rfl | ⟨d, ds, rfl, _, hd, _⟩
  · exact ⟨'0', [], rfl, rfl⟩
  · exact ⟨d, ds, rfl, hd⟩

theorem isNameChar_of_isDigit {c : Char} (h : c.isDigit) : isNameChar c := by
  simp [isNameChar, Unicode.isDecimalDigit_of_isDigit h]

theorem isNameChar_of_isNameStart {c : Char} (h : isNameStart c) : isNameChar c := by
  simp [isNameChar, h]

theorem isNameChar_of_identifier {name rest : List Char} (h : Identifier name rest) :
    ∀ c ∈ name, isNameChar c := by
  obtain ⟨d, ds, rfl, hd, hds, _⟩ := h
  intro c hc
  rcases List.mem_cons.mp hc with rfl | hc
  · exact isNameChar_of_isNameStart hd
  · exact hds c hc

theorem isNameChar_of_natural {digits rest : List Char} (h : Natural digits rest) :
    ∀ c ∈ digits, isNameChar c := by
  intro c hc
  rcases h with rfl | ⟨d, ds, rfl, _, hd, hds, _⟩
  · rw [List.mem_singleton.mp hc]
    decide
  · rcases List.mem_cons.mp hc with rfl | hc
    · exact isNameChar_of_isDigit hd
    · exact isNameChar_of_isDigit (hds c hc)

/-- A name ends before a closing parenthesis. -/
theorem stops_paren (cs : List Char) : Stops isNameChar (')' :: cs) := by
  intro c hc
  cases hc
  decide

end Lexeme

namespace Form
open Lexeme

theorem begins_lineComment_iff {cs : List Char} : lineComment.Begins cs ↔ ∃ ds, cs = '-' :: '-' :: ds := by
  rw [begins_iff_isSome_read, read]
  constructor
  · intro h
    unfold lineComment? at h
    split at h
    · next ds => exact ⟨ds, rfl⟩
    · cases h
  · rintro ⟨ds, rfl⟩
    rfl

theorem begins_blockComment_iff {cs : List Char} :
    blockComment.Begins cs ↔ ∃ ds, cs = '/' :: '*' :: ds ∧ (throughStarSlash? ds).isSome := by
  rw [begins_iff_isSome_read, read]
  constructor
  · intro h
    unfold blockComment? at h
    split at h
    · next ds => exact ⟨ds, rfl, by rwa [Option.isSome_map] at h⟩
    · cases h
  · rintro ⟨ds, rfl, h⟩
    rwa [blockComment?, Option.isSome_map]

theorem isSome_quoted?_iff {quote : Char} {cs : List Char} :
    (quoted? quote cs).isSome ↔ ∃ ds, cs = quote :: ds ∧ (throughQuote? quote ds).isSome := by
  constructor
  · intro h
    cases cs with
    | nil => cases h
    | cons c cs =>
      rw [quoted?] at h
      split at h
      · next hc => exact ⟨cs, by rw [hc], by rwa [Option.isSome_map] at h⟩
      · cases h
  · rintro ⟨ds, rfl, h⟩
    rwa [quoted?, if_pos rfl, Option.isSome_map]

theorem begins_implicit_iff {cs : List Char} : implicit.Begins cs ↔ ∃ ds, cs = '?' :: ds := by
  rw [begins_iff_isSome_read, read]
  constructor
  · intro h
    unfold implicit? at h
    split at h
    · next ds => exact ⟨ds, rfl⟩
    · cases h
  · rintro ⟨ds, rfl⟩
    rfl

theorem begins_explicit_iff {cs : List Char} :
    explicit.Begins cs ↔ ∃ sigil d ds, cs = sigil :: d :: ds ∧ isIndexSigil sigil ∧ d.isDigit := by
  rw [begins_iff_isSome_read, read]
  constructor
  · intro h
    unfold explicit? at h
    split at h
    · cases h
    · next sigil cs =>
      split at h
      · next hs =>
        rw [Option.isSome_map] at h
        obtain ⟨⟨digits, rest⟩, hn⟩ := Option.isSome_iff_exists.mp h
        obtain ⟨rfl, hnat⟩ := natural?_eq_some_iff.mp hn
        obtain ⟨d, ds, rfl, hd⟩ := exists_cons_of_natural hnat
        exact ⟨sigil, d, ds ++ rest, rfl, hs, hd⟩
      · cases h
  · rintro ⟨sigil, d, ds, rfl, hs, hd⟩
    rw [explicit?, if_pos hs, Option.isSome_map, Text.natural?, if_pos hd]
    split <;> rfl

theorem begins_named_iff {cs : List Char} :
    named.Begins cs ↔ ∃ sigil c ds, cs = sigil :: c :: ds ∧ isNameSigil sigil ∧ isNameStart c := by
  rw [begins_iff_isSome_read, read]
  constructor
  · intro h
    unfold named? at h
    split at h
    · cases h
    · next sigil cs =>
      split at h
      · next hs =>
        rw [Option.isSome_map] at h
        obtain ⟨⟨name, rest⟩, hn⟩ := Option.isSome_iff_exists.mp h
        obtain ⟨rfl, c, ds, rfl, hc, _⟩ := identifier?_eq_some_iff.mp hn
        exact ⟨sigil, c, ds ++ rest, rfl, hs, hc⟩
      · cases h
  · rintro ⟨sigil, c, ds, rfl, hs, hc⟩
    rw [named?, if_pos hs, Option.isSome_map, identifier?, if_pos hc]
    rfl

theorem begins_percentNamed_iff {cs : List Char} :
    percentNamed.Begins cs ↔ ∃ c name ds, cs = '%' :: '(' :: c :: (name ++ ')' :: 's' :: ds) ∧
      isNameStart c ∧ ∀ d ∈ name, isNameChar d := by
  constructor
  · rintro ⟨l, rest, rfl, h⟩
    cases h with
    | percentNamed hi =>
      obtain ⟨c, name, rfl, hc, hn, _⟩ := hi
      exact ⟨c, name, rest, by simp, hc, hn⟩
  · rintro ⟨c, name, ds, rfl, hc, hn⟩
    have hi : Identifier (c :: name) (')' :: 's' :: ds) := ⟨c, name, rfl, hc, hn, stops_paren _⟩
    exact ⟨_, ds, by simp, .percentNamed hi⟩

def isOpening (c : Char) : Bool :=
  c == '-' || c == '/' || c == '\x27' || c == '\x22' || c == '\x60' || c == '?' || c == '$' || c == '@' ||
    c == ':' || c == '%'

theorem isOpening_of_begins {form : Form} {c : Char} {cs : List Char} (h : form.Begins (c :: cs)) :
    isOpening c := by
  obtain ⟨l, rest, heq, hl⟩ := h
  cases hl with
  | explicit hc _ | named hc _ =>
    obtain ⟨rfl, _⟩ := List.cons.inj heq
    simp only [List.mem_cons, List.not_mem_nil, or_false] at hc
    rcases hc with rfl | rfl | rfl <;> decide
  | _ =>
    obtain ⟨rfl, _⟩ := List.cons.inj heq
    decide

theorem isOpening_of_isNameChar {c : Char} (h : isNameChar c) : isOpening c = false := by
  rw [Bool.eq_false_iff]
  intro ho
  simp only [isOpening, Bool.or_eq_true, beq_iff_eq] at ho
  rcases ho with (((((((((rfl | rfl) | rfl) | rfl) | rfl) | rfl) | rfl) | rfl) | rfl) | rfl) <;>
    exact absurd h (by decide)

/-- Behind the first character of a parameter nothing is found. -/
theorem isOpening_of_mem_tail {form : Form} {l : Lexeme} {rest : List Char} (h : form.Covers l rest)
    (hp : l.kind.isParameter) : ∀ c ∈ l.text.tail, isOpening c = false := by
  intro c hc
  cases h with
  | lineComment | blockComment | singleQuoted | doubleQuoted | backquoted => cases hp
  | implicit => cases hc
  | explicit _ hn => exact isOpening_of_isNameChar (isNameChar_of_natural hn c hc)
  | named _ hi => exact isOpening_of_isNameChar (isNameChar_of_identifier hi c hc)
  | percentNamed hi =>
    simp only [List.cons_append, List.tail_cons, List.mem_cons, List.mem_append, List.not_mem_nil, or_false] at hc
    rcases hc with rfl | hc | rfl | rfl
    · decide
    · exact isOpening_of_isNameChar (isNameChar_of_identifier hi c hc)
    · decide
    · decide

/-- The only form that may be found at the front of a text, by the first two characters. -/
def only? : List Char → Option Form
  | '-' :: _ => some .lineComment
  | '/' :: _ => some .blockComment
  | '\x27' :: _ => some .singleQuoted
  | '\x22' :: _ => some .doubleQuoted
  | '\x60' :: _ => some .backquoted
  | '?' :: _ => some .implicit
  | '$' :: _ => some .explicit
  | '%' :: _ => some .percentNamed
  | _ :: c :: _ => some (if c.isDigit then .explicit else .named)
  | _ => none

theorem only?_of_covers {form : Form} {rest : List Char} {l : Lexeme} (h : form.Covers l rest) :
    only? (l.text ++ rest) = some form := by
  cases h with
  | lineComment | blockComment | singleQuoted | doubleQuoted | backquoted | implicit | percentNamed => rfl
  | @explicit sigil digits _ hc hn =>
    obtain ⟨d, ds, rfl, hd⟩ := exists_cons_of_natural hn
    simp only [List.mem_cons, List.not_mem_nil, or_false] at hc
    rcases hc with rfl | rfl | rfl <;> simp [only?, hd]
  | @named sigil name _ hc hi =>
    obtain ⟨c, cs, rfl, hs, _⟩ := hi
    have hd : c.isDigit = false := isDigit_of_isNameStart hs
    simp only [List.mem_cons, List.not_mem_nil, or_false] at hc
    rcases hc with rfl | rfl <;> simp [only?, hd]

/-- At one place one form at most is found, and it covers one lexeme. -/
theorem covers_unique {form form' : Form} {l l' : Lexeme} {rest rest' : List Char} (h : form.Covers l rest)
    (h' : form'.Covers l' rest') (heq : l.text ++ rest = l'.text ++ rest') :
    form = form' ∧ l = l' ∧ rest = rest' := by
  have hform : form = form' := by
    have ho := only?_of_covers h
    rw [heq, only?_of_covers h'] at ho
    exact (Option.some.inj ho).symm
  subst form'
  have hr := read_of_covers h
  rw [heq, read_of_covers h'] at hr
  cases hr
  exact ⟨rfl, rfl, rfl⟩

theorem mem_all (form : Form) : form ∈ all := by
  cases form <;> decide

section
variable {forms : List Form} {cs : List Char}

/-- When every form is tried, the order does not matter for what is found. -/
theorem first?_eq_some_iff (hforms : ∀ form, form ∈ forms) {rest : List Char} {l : Lexeme} :
    first? forms cs = some (l, rest) ↔ cs = l.text ++ rest ∧ ∃ form : Form, form.Covers l rest := by
  constructor
  · intro h
    obtain ⟨form, _, hr⟩ := List.exists_of_findSome?_eq_some h
    exact ⟨read_append hr, form, covers_of_read hr⟩
  · rintro ⟨rfl, form, h⟩
    cases hf : first? forms (l.text ++ rest) with
    | none =>
      have hn := List.findSome?_eq_none_iff.mp hf form (hforms form)
      rw [read_of_covers h] at hn
      cases hn
    | some found =>
      obtain ⟨form', _, hr⟩ := List.exists_of_findSome?_eq_some hf
      obtain ⟨rfl, rfl, rfl⟩ := covers_unique h (covers_of_read hr) (read_append hr)
      rfl

theorem first?_eq_none_iff (hforms : ∀ form, form ∈ forms) :
    first? forms cs = none ↔ ∀ form : Form, ¬ form.Begins cs := by
  simp only [first?, List.findSome?_eq_none_iff, begins_iff_isSome_read, hforms, true_imp_iff,
    Bool.not_eq_true, Option.isSome_eq_false_iff, Option.isNone_iff_eq_none]

theorem first?_all_eq_some_iff {rest : List Char} {l : Lexeme} :
    first? all cs = some (l, rest) ↔ cs = l.text ++ rest ∧ ∃ form : Form, form.Covers l rest :=
  first?_eq_some_iff mem_all

theorem first?_all_eq_none_iff : first? all cs = none ↔ ∀ form : Form, ¬ form.Begins cs :=
  first?_eq_none_iff mem_all

end

end Form
end Placeholder
