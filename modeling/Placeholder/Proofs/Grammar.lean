import Placeholder.Token.Form

/-!
The grammar of lexemes: what each form covers, given the text that follows it. The readers of the forms
find exactly this.
-/
namespace Placeholder

namespace Lexeme

/-- The text after ends, or goes on with a character outside the class. -/
def Stops (p : Char → Bool) (rest : List Char) : Prop :=
  ∀ c ∈ rest.head?, p c = false

theorem stops_cons {p : Char → Bool} {c : Char} (h : p c = false) (cs : List Char) : Stops p (c :: cs) := by
  rintro d ⟨⟩
  exact h

/-- The rest of a line through its newline, or to the end of the text if there is none. -/
def LineBody (line rest : List Char) : Prop :=
  '\n' ∉ line ∧ rest = [] ∨ ∃ body, line = body ++ ['\n'] ∧ '\n' ∉ body

/-- The rest of a block comment. Star-slash closes it, any other star is skipped with the character after
it, and every other character is skipped alone. -/
inductive CommentBody : List Char → Prop
  | close : CommentBody ['*', '/']
  | star {c : Char} {body : List Char} : c ≠ '/' → CommentBody body → CommentBody ('*' :: c :: body)
  | other {c : Char} {body : List Char} : c ≠ '*' → CommentBody body → CommentBody (c :: body)

/-- The rest of a quoted text through its first closing quote. A backslash takes the next character with
it, which is no newline. -/
inductive QuotedBody (quote : Char) : List Char → Prop
  | close : QuotedBody quote [quote]
  | escape {c : Char} {body : List Char} :
    c ≠ '\n' → QuotedBody quote body → QuotedBody quote ('\\' :: c :: body)
  | other {c : Char} {body : List Char} :
    c ≠ quote → c ≠ '\\' → QuotedBody quote body → QuotedBody quote (c :: body)

def Natural (digits rest : List Char) : Prop :=
  digits = ['0'] ∨
    ∃ c cs, digits = c :: cs ∧ c ≠ '0' ∧ c.isDigit ∧ (∀ d ∈ cs, d.isDigit) ∧ Stops Char.isDigit rest

def Identifier (name rest : List Char) : Prop :=
  ∃ c cs, name = c :: cs ∧ isNameStart c ∧ (∀ d ∈ cs, isNameChar d) ∧ Stops isNameChar rest

end Lexeme

namespace Form
open Lexeme

/-- The form covers a lexeme when the text after it is `rest`. -/
inductive Covers : Form → Lexeme → List Char → Prop
  | lineComment {line rest : List Char} :
    LineBody line rest → Covers .lineComment (.plain ('-' :: '-' :: line)) rest
  | blockComment {body rest : List Char} :
    CommentBody body → Covers .blockComment (.plain ('/' :: '*' :: body)) rest
  | singleQuoted {body rest : List Char} :
    QuotedBody '\x27' body → Covers .singleQuoted (.plain ('\x27' :: body)) rest
  | doubleQuoted {body rest : List Char} :
    QuotedBody '\x22' body → Covers .doubleQuoted (.plain ('\x22' :: body)) rest
  | backquoted {body rest : List Char} :
    QuotedBody '\x60' body → Covers .backquoted (.plain ('\x60' :: body)) rest
  | implicit {rest : List Char} : Covers .implicit ⟨.implicit, ['?'], ['?']⟩ rest
  | explicit {sigil : Char} {digits rest : List Char} : sigil ∈ ['$', '@', ':'] → Natural digits rest →
    Covers .explicit ⟨.explicit, sigil :: digits, digits⟩ rest
  | named {sigil : Char} {name rest : List Char} : sigil ∈ ['@', ':'] → Identifier name rest →
    Covers .named ⟨.named, sigil :: name, name⟩ rest
  | percentNamed {name rest : List Char} : Identifier name (')' :: 's' :: rest) →
    Covers .percentNamed ⟨.percentNamed, '%' :: '(' :: name ++ [')', 's'], name⟩ rest

/-- The form is found at the front of the text. -/
def Begins (form : Form) (cs : List Char) : Prop :=
  ∃ l rest, cs = l.text ++ rest ∧ form.Covers l rest

end Form

namespace Lexeme

/-- Taking and dropping a class of characters cuts the text where the class stops. -/
theorem takeWhile_dropWhile_iff {p : Char → Bool} {cs taken rest : List Char} :
    cs.takeWhile p = taken ∧ cs.dropWhile p = rest ↔
      cs = taken ++ rest ∧ (∀ c ∈ taken, p c) ∧ Stops p rest := by
  constructor
  · rintro ⟨rfl, rfl⟩
    refine ⟨List.takeWhile_append_dropWhile.symm, fun c hc => ?_, fun c hc => ?_⟩
    · exact List.all_eq_true.mp List.all_takeWhile c hc
    · have hd := List.head?_dropWhile_not p cs
      rw [Option.mem_def.mp hc] at hd
      simpa using hd
  · rintro ⟨rfl, hp, hs⟩
    have ht : rest.takeWhile p = [] ∧ rest.dropWhile p = rest := by
      cases rest with
      | nil => exact ⟨rfl, rfl⟩
      | cons c cs =>
        have hc : p c = false := hs c rfl
        exact ⟨by rw [List.takeWhile_cons, hc]; rfl, by rw [List.dropWhile_cons, hc]; rfl⟩
    rw [List.takeWhile_append_of_pos hp, List.dropWhile_append_of_pos hp, ht.1, ht.2]
    simp

theorem throughNewline_eq_iff {cs line rest : List Char} :
    throughNewline cs = (line, rest) ↔ cs = line ++ rest ∧ LineBody line rest := by
  constructor
  · intro h
    refine ⟨by rw [← throughNewline_append cs, h], ?_⟩
    induction cs generalizing line with
    | nil =>
      cases h
      exact Or.inl ⟨List.not_mem_nil, rfl⟩
    | cons c cs ih =>
      rw [throughNewline] at h
      split at h
      · next hc =>
        cases h
        exact Or.inr ⟨[], by rw [hc]; rfl, List.not_mem_nil⟩
      · next hc =>
        cases h
        rcases ih rfl with ⟨hn, hr⟩ | ⟨body, hb, hn⟩
        · exact Or.inl ⟨by simp [hn, Ne.symm hc], hr⟩
        · exact Or.inr ⟨c :: body, by rw [hb]; rfl, by simp [hn, Ne.symm hc]⟩
  · rintro ⟨rfl, ⟨hn, rfl⟩ | ⟨body, rfl, hn⟩⟩
    · induction line with
      | nil => rfl
      | cons c line ih =>
        rw [List.mem_cons, not_or] at hn
        rw [List.cons_append, throughNewline, if_neg (Ne.symm hn.1), ih hn.2]
    · induction body with
      | nil => simp [throughNewline]
      | cons c body ih =>
        rw [List.mem_cons, not_or] at hn
        rw [List.cons_append, List.cons_append, throughNewline, if_neg (Ne.symm hn.1), ih hn.2]

theorem throughStarSlash?_star {c : Char} (hc : c ≠ '/') (cs : List Char) :
    throughStarSlash? ('*' :: c :: cs) =
      (throughStarSlash? cs).map fun (body, rest) => ('*' :: c :: body, rest) := by
  rw [throughStarSlash?]
  exact hc

theorem throughStarSlash?_other {c : Char} (hc : c ≠ '*') (cs : List Char) :
    throughStarSlash? (c :: cs) = (throughStarSlash? cs).map fun (body, rest) => (c :: body, rest) := by
  rw [throughStarSlash?]
  · exact fun h => absurd h hc
  · exact fun _ h => absurd h hc
  · exact fun _ _ h => absurd h hc

/-- The scan steps over one character when it finds no star, neither at the end of the text nor before more. -/
theorem ne_star_of_cases {c : Char} {cs : List Char} (hnil : c = '*' → cs = [] → False)
    (hcons : ∀ d ds, c = '*' → cs = d :: ds → False) : c ≠ '*' := by
  intro hc
  cases cs with
  | nil => exact hnil hc rfl
  | cons d ds => exact hcons d ds hc rfl

theorem throughStarSlash?_eq_some_iff {cs body rest : List Char} :
    throughStarSlash? cs = some (body, rest) ↔ cs = body ++ rest ∧ CommentBody body := by
  constructor
  · intro h
    refine ⟨throughStarSlash?_append h, ?_⟩
    fun_induction throughStarSlash? cs generalizing body with
    | case1 => cases h
    | case2 => cases h
    | case3 cs =>
      cases h
      exact .close
    | case4 c cs hc ih =>
      obtain ⟨⟨b, r⟩, hb, heq⟩ := Option.map_eq_some_iff.mp h
      cases heq
      exact .star hc (ih hb)
    | case5 c cs hnil _ hcons ih =>
      obtain ⟨⟨b, r⟩, hb, heq⟩ := Option.map_eq_some_iff.mp h
      cases heq
      exact .other (ne_star_of_cases hnil hcons) (ih hb)
  · rintro ⟨rfl, hb⟩
    induction hb with
    | close => rfl
    | star hc _ ih => rw [List.cons_append, List.cons_append, throughStarSlash?_star hc, ih]; rfl
    | other hc _ ih => rw [List.cons_append, throughStarSlash?_other hc, ih]; rfl

theorem throughQuote?_quote (quote : Char) (cs : List Char) :
    throughQuote? quote (quote :: cs) = some ([quote], cs) := by
  rw [throughQuote?.eq_def]
  exact if_pos rfl

theorem throughQuote?_newline {quote : Char} (hq : quote ≠ '\\') (cs : List Char) :
    throughQuote? quote ('\\' :: '\n' :: cs) = none := by
  rw [throughQuote?, if_neg hq.symm, if_pos rfl]
  exact if_pos rfl

theorem throughQuote?_escape {quote c : Char} (hq : quote ≠ '\\') (hc : c ≠ '\n') (cs : List Char) :
    throughQuote? quote ('\\' :: c :: cs) =
      (throughQuote? quote cs).map fun (body, rest) => ('\\' :: c :: body, rest) := by
  rw [throughQuote?, if_neg hq.symm, if_pos rfl]
  exact if_neg hc

theorem throughQuote?_other {quote c : Char} (hq : c ≠ quote) (hc : c ≠ '\\') (cs : List Char) :
    throughQuote? quote (c :: cs) = (throughQuote? quote cs).map fun (body, rest) => (c :: body, rest) := by
  rw [throughQuote?.eq_def]
  exact (if_neg hq).trans (if_neg hc)

theorem throughQuote?_eq_some_iff {quote : Char} {cs body rest : List Char} (hq : quote ≠ '\\') :
    throughQuote? quote cs = some (body, rest) ↔ cs = body ++ rest ∧ QuotedBody quote body := by
  constructor
  · intro h
    refine ⟨throughQuote?_append h, ?_⟩
    fun_induction throughQuote? quote cs generalizing body with
    | case1 => cases h
    | case2 cs =>
      cases h
      exact .close
    | case3 => cases h
    | case4 => cases h
    | case5 c cs hc _ ih =>
      obtain ⟨⟨b, r⟩, hb, heq⟩ := Option.map_eq_some_iff.mp h
      cases heq
      exact .escape hc (ih hb)
    | case6 c cs hcq hc ih =>
      obtain ⟨⟨b, r⟩, hb, heq⟩ := Option.map_eq_some_iff.mp h
      cases heq
      exact .other hcq hc (ih hb)
  · rintro ⟨rfl, hb⟩
    induction hb with
    | close => rw [List.cons_append, throughQuote?_quote]; rfl
    | escape hc _ ih => rw [List.cons_append, List.cons_append, throughQuote?_escape hq hc, ih]; rfl
    | other hcq hc _ ih => rw [List.cons_append, throughQuote?_other hcq hc, ih]; rfl

theorem natural?_eq_some_iff {cs digits rest : List Char} :
    Text.natural? cs = some (digits, rest) ↔ cs = digits ++ rest ∧ Natural digits rest := by
  constructor
  · intro h
    refine ⟨Text.natural?_append h, ?_⟩
    cases cs with
    | nil => cases h
    | cons c cs =>
      rw [Text.natural?] at h
      split at h
      · next hc =>
        cases h
        exact Or.inl (by rw [hc])
      · next hc =>
        split at h
        · next hd =>
          cases h
          have hs : cs = _ ∧ (∀ d ∈ cs.takeWhile Char.isDigit, d.isDigit) ∧
              Stops Char.isDigit (cs.dropWhile Char.isDigit) := takeWhile_dropWhile_iff.mp ⟨rfl, rfl⟩
          exact Or.inr ⟨c, _, rfl, hc, hd, hs.2.1, hs.2.2⟩
        · cases h
  · rintro ⟨rfl, rfl | ⟨c, cs, rfl, hc, hd, hds, hs⟩⟩
    · rfl
    · have ht := takeWhile_dropWhile_iff.mpr ⟨rfl, hds, hs⟩
      rw [List.cons_append, Text.natural?, if_neg hc, if_pos hd, ht.1, ht.2]

theorem identifier?_eq_some_iff {cs name rest : List Char} :
    identifier? cs = some (name, rest) ↔ cs = name ++ rest ∧ Identifier name rest := by
  constructor
  · intro h
    refine ⟨identifier?_append h, ?_⟩
    cases cs with
    | nil => cases h
    | cons c cs =>
      rw [identifier?] at h
      split at h
      · next hc =>
        cases h
        have hs : cs = _ ∧ (∀ d ∈ cs.takeWhile isNameChar, isNameChar d) ∧
            Stops isNameChar (cs.dropWhile isNameChar) := takeWhile_dropWhile_iff.mp ⟨rfl, rfl⟩
        exact ⟨c, _, rfl, hc, hs.2.1, hs.2.2⟩
      · cases h
  · rintro ⟨rfl, c, cs, rfl, hc, hcs, hs⟩
    have ht := takeWhile_dropWhile_iff.mpr ⟨rfl, hcs, hs⟩
    rw [List.cons_append, identifier?, if_pos hc, ht.1, ht.2]

/-- Every reader of a quoted text finds the quote and the rest. -/
theorem quoted?_eq_some_iff {quote : Char} {cs rest : List Char} {l : Lexeme} (hq : quote ≠ '\\') :
    quoted? quote cs = some (l, rest) ↔
      ∃ body, l = .plain (quote :: body) ∧ cs = quote :: body ++ rest ∧ QuotedBody quote body := by
  cases cs with
  | nil => simp [quoted?]
  | cons c cs =>
    rw [quoted?]
    by_cases hc : c = quote
    · subst c
      rw [if_pos rfl]
      constructor
      · intro h
        obtain ⟨⟨b, r⟩, hb, heq⟩ := Option.map_eq_some_iff.mp h
        cases heq
        obtain ⟨rfl, hbody⟩ := (throughQuote?_eq_some_iff hq).1 hb
        exact ⟨b, rfl, rfl, hbody⟩
      · rintro ⟨body, rfl, heq, hb⟩
        rw [(throughQuote?_eq_some_iff hq).2 ⟨(List.cons.inj heq).2, hb⟩]
        rfl
    · rw [if_neg hc]
      constructor
      · intro h
        cases h
      · rintro ⟨body, _, heq, _⟩
        exact absurd (List.cons.inj heq).1 hc

end Lexeme

namespace Form
open Lexeme

theorem covers_of_read {form : Form} {cs rest : List Char} {l : Lexeme} (h : form.read cs = some (l, rest)) :
    form.Covers l rest := by
  cases form <;> rw [read] at h
  case lineComment =>
    unfold lineComment? at h
    split at h
    · next cs =>
      cases h
      exact .lineComment (throughNewline_eq_iff.mp rfl).2
    · cases h
  case blockComment =>
    unfold blockComment? at h
    split at h
    · next cs =>
      obtain ⟨⟨b, r⟩, hb, heq⟩ := Option.map_eq_some_iff.mp h
      cases heq
      exact .blockComment (throughStarSlash?_eq_some_iff.mp hb).2
    · cases h
  case singleQuoted =>
    obtain ⟨body, rfl, _, hb⟩ := (quoted?_eq_some_iff (by decide)).1 h
    exact .singleQuoted hb
  case doubleQuoted =>
    obtain ⟨body, rfl, _, hb⟩ := (quoted?_eq_some_iff (by decide)).1 h
    exact .doubleQuoted hb
  case backquoted =>
    obtain ⟨body, rfl, _, hb⟩ := (quoted?_eq_some_iff (by decide)).1 h
    exact .backquoted hb
  case implicit =>
    unfold implicit? at h
    split at h
    · cases h
      exact .implicit
    · cases h
  case explicit =>
    unfold explicit? at h
    split at h
    · cases h
    · next c cs =>
      split at h
      · next hc =>
        obtain ⟨⟨b, r⟩, hb, heq⟩ := Option.map_eq_some_iff.mp h
        cases heq
        exact .explicit (by simpa [isIndexSigil, or_assoc] using hc) (natural?_eq_some_iff.mp hb).2
      · cases h
  case named =>
    unfold named? at h
    split at h
    · cases h
    · next c cs =>
      split at h
      · next hc =>
        obtain ⟨⟨b, r⟩, hb, heq⟩ := Option.map_eq_some_iff.mp h
        cases heq
        exact .named (by simpa [isNameSigil] using hc) (identifier?_eq_some_iff.mp hb).2
      · cases h
  case percentNamed =>
    unfold percentNamed? at h
    split at h
    · next cs =>
      split at h
      · next name rest' hi =>
        cases h
        exact .percentNamed (identifier?_eq_some_iff.mp hi).2
      · cases h
    · cases h

/-- A form reads what it covers, whatever stands after it. -/
theorem read_of_covers {form : Form} {rest : List Char} {l : Lexeme} (h : form.Covers l rest) :
    form.read (l.text ++ rest) = some (l, rest) := by
  cases h with
  | @lineComment line _ hl =>
    change (let (line', rest') := throughNewline (line ++ rest)
      some (Lexeme.plain ('-' :: '-' :: line'), rest')) = _
    rw [throughNewline_eq_iff.mpr ⟨rfl, hl⟩]
  | blockComment hb =>
    change (throughStarSlash? (_ ++ _)).map _ = _
    rw [throughStarSlash?_eq_some_iff.mpr ⟨rfl, hb⟩]
    rfl
  | singleQuoted hb => exact (quoted?_eq_some_iff (by decide)).2 ⟨_, rfl, rfl, hb⟩
  | doubleQuoted hb => exact (quoted?_eq_some_iff (by decide)).2 ⟨_, rfl, rfl, hb⟩
  | backquoted hb => exact (quoted?_eq_some_iff (by decide)).2 ⟨_, rfl, rfl, hb⟩
  | implicit => rfl
  | @explicit sigil digits _ hc hn =>
    change (if isIndexSigil sigil then (Text.natural? (digits ++ rest)).map _ else none) = _
    rw [if_pos (by simpa [isIndexSigil, or_assoc] using hc), natural?_eq_some_iff.mpr ⟨rfl, hn⟩]
    rfl
  | @named sigil name _ hc hi =>
    change (if isNameSigil sigil then (identifier? (name ++ rest)).map _ else none) = _
    rw [if_pos (by simpa [isNameSigil] using hc), identifier?_eq_some_iff.mpr ⟨rfl, hi⟩]
    rfl
  | @percentNamed name _ hi =>
    have happ : '%' :: '(' :: name ++ [')', 's'] ++ rest = '%' :: '(' :: (name ++ ')' :: 's' :: rest) := by
      simp
    change percentNamed? ('%' :: '(' :: name ++ [')', 's'] ++ rest) = _
    rw [happ, percentNamed?, identifier?_eq_some_iff.mpr ⟨rfl, hi⟩]
    rfl

theorem read_eq_some_iff {form : Form} {cs rest : List Char} {l : Lexeme} :
    form.read cs = some (l, rest) ↔ cs = l.text ++ rest ∧ form.Covers l rest := by
  constructor
  · intro h
    exact ⟨read_append h, covers_of_read h⟩
  · rintro ⟨rfl, h⟩
    exact read_of_covers h

theorem begins_iff_isSome_read {form : Form} {cs : List Char} : form.Begins cs ↔ (form.read cs).isSome := by
  simp only [Begins, ← read_eq_some_iff, Option.isSome_iff_exists, Prod.exists]

end Form
end Placeholder
