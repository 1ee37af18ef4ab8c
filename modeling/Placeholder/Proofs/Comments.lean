import Placeholder.Proofs.Tiling
import Mathlib.Algebra.Group.Nat.Even

/-!
Block comments. A star hides the character after it, so of the star-slashes behind the opening the first one
with an even number of stars right before it closes the comment. What stands in between is one token, and the
text behind it is read as if it stood alone.
-/
namespace Placeholder
open Form Lexeme

def endStars (cs : List Char) : Nat :=
  (cs.reverse.takeWhile (· == '*')).length

def EvenStars (cs : List Char) : Prop :=
  Even (endStars cs)

instance : DecidablePred EvenStars := fun cs => inferInstanceAs (Decidable (Even (endStars cs)))

/-- A star-slash stands in the text between `body`, which has the property, and `after`. -/
structure StarSlash (p : List Char → Prop) (text body after : List Char) : Prop where
  text_eq : text = body ++ '*' :: '/' :: after
  holds : p body

/-- No other star-slash of the text with the property stands before this one. -/
structure FirstStarSlash (p : List Char → Prop) (text body after : List Char) : Prop extends
    StarSlash p text body after where
  first : ∀ body' after', StarSlash p text body' after' → body.length ≤ body'.length

theorem firstStarSlash_iff {p : List Char → Prop} {text body after : List Char} :
    FirstStarSlash p text body after ↔ text = body ++ '*' :: '/' :: after ∧ p body ∧
      ∀ n < body.length, ['*', '/'] <+: text.drop n → ¬ p (text.take n) := by
  constructor
  · rintro ⟨⟨htext, hbody⟩, hfirst⟩
    refine ⟨htext, hbody, fun n hn hprefix hp => ?_⟩
    obtain ⟨after', hdrop⟩ := hprefix
    have hcut : text = text.take n ++ '*' :: '/' :: after' := by
      have htail : text.drop n = '*' :: '/' :: after' := hdrop.symm
      rw [← htail, List.take_append_drop]
    have hle := hfirst _ _ ⟨hcut, hp⟩
    have hlength := List.length_take_le n text
    omega
  · rintro ⟨htext, hbody, hfirst⟩
    refine ⟨⟨htext, hbody⟩, fun body' after' h => ?_⟩
    by_contra hlt
    apply hfirst body'.length (by omega)
    · exact ⟨after', by simp [h.text_eq]⟩
    · simpa [h.text_eq] using h.holds

instance {p : List Char → Prop} [DecidablePred p] (text body after : List Char) :
    Decidable (FirstStarSlash p text body after) :=
  decidable_of_iff _ firstStarSlash_iff.symm

theorem endStars_cons (c : Char) (cs : List Char) : endStars (c :: cs) =
    if endStars cs = cs.length then cs.length + (if c = '*' then 1 else 0) else endStars cs := by
  unfold endStars
  rw [List.reverse_cons, List.takeWhile_append, List.length_reverse]
  split
  · by_cases hc : c = '*' <;> simp [hc]
  · rfl

private theorem endStars_le_length (cs : List Char) : endStars cs ≤ cs.length := by
  have hsub := List.takeWhile_sublist (· == '*') (l := cs.reverse)
  simpa [endStars] using hsub.length_le

theorem evenStars_cons {c : Char} (hc : c ≠ '*') (cs : List Char) : EvenStars (c :: cs) ↔ EvenStars cs := by
  have heq : endStars (c :: cs) = endStars cs := by
    rw [endStars_cons]
    split <;> simp_all
  rw [EvenStars, heq, EvenStars]

/-- A star and the character that it hides do not change whether the number of stars is even. -/
theorem evenStars_star (c : Char) (cs : List Char) : EvenStars ('*' :: c :: cs) ↔ EvenStars cs := by
  have hle := endStars_le_length cs
  have hstep : endStars ('*' :: c :: cs) = endStars cs + 2 ∨ endStars ('*' :: c :: cs) = endStars cs := by
    rw [endStars_cons, List.length_cons, endStars_cons]
    by_cases hall : endStars cs = cs.length
    · by_cases hc : c = '*' <;> simp [hall, hc]
    · rw [if_neg hall, if_neg (by omega)]
      exact Or.inr rfl
  simp only [EvenStars, Nat.even_iff]
  omega

/-! The scan for the close of a comment goes over a star together with what it hides, and over any other
character alone. Neither changes which star-slashes close. -/

private theorem starSlash_star {c : Char} (hc : c ≠ '/') {cs body after : List Char}
    (h : StarSlash EvenStars ('*' :: c :: cs) body after) :
    ∃ b, body = '*' :: c :: b ∧ StarSlash EvenStars cs b after := by
  have htext := h.text_eq
  match body with
  | [] =>
    obtain ⟨_, htail⟩ := List.cons.inj htext
    exact absurd (List.cons.inj htail).1 hc
  | [d] =>
    -- One star alone is no even number of them.
    obtain ⟨rfl, _⟩ := List.cons.inj htext
    exact absurd h.holds (by decide)
  | d :: e :: b =>
    obtain ⟨rfl, htail⟩ := List.cons.inj htext
    obtain ⟨rfl, hrest⟩ := List.cons.inj htail
    exact ⟨b, rfl, hrest, (evenStars_star c b).mp h.holds⟩

private theorem starSlash_other {c : Char} (hc : c ≠ '*') {cs body after : List Char}
    (h : StarSlash EvenStars (c :: cs) body after) :
    ∃ b, body = c :: b ∧ StarSlash EvenStars cs b after := by
  have htext := h.text_eq
  cases body with
  | nil => exact absurd (List.cons.inj htext).1 hc
  | cons d b =>
    obtain ⟨rfl, htail⟩ := List.cons.inj htext
    exact ⟨b, rfl, htail, (evenStars_cons hc b).mp h.holds⟩

/-- The first star-slash that closes is the first also in what is left behind characters that hide none. -/
theorem FirstStarSlash.of_append {p : List Char → Prop} (front : List Char) {cs body after : List Char}
    (h : FirstStarSlash p (front ++ cs) (front ++ body) after) (hstands : StarSlash p cs body after)
    (hp : ∀ b, p b → p (front ++ b)) : FirstStarSlash p cs body after := by
  refine ⟨hstands, fun body' after' h' => ?_⟩
  have hle := h.first (front ++ body') after' ⟨by rw [h'.text_eq, List.append_assoc], hp _ h'.holds⟩
  simpa using hle

/-- The scan ends at the first star-slash with an even number of stars right before it. -/
theorem throughStarSlash?_of_first {cs body after : List Char} (h : FirstStarSlash EvenStars cs body after) :
    throughStarSlash? cs = some (body ++ ['*', '/'], after) := by
  fun_induction throughStarSlash? cs generalizing body with
  | case1 =>
    have htext := h.text_eq
    simp at htext
  | case2 =>
    have hlength := congrArg List.length h.text_eq
    simp only [List.length_append, List.length_cons, List.length_nil] at hlength
    omega
  | case3 cs =>
    have hle := h.first [] cs ⟨rfl, by decide⟩
    have hnil : body = [] := List.length_eq_zero_iff.mp (Nat.le_zero.mp hle)
    subst hnil
    have htext := h.text_eq
    simp_all
  | case4 c cs hc ih =>
    obtain ⟨b, rfl, hstands⟩ := starSlash_star hc h.toStarSlash
    have hfirst : FirstStarSlash EvenStars cs b after :=
      FirstStarSlash.of_append ['*', c] h hstands fun b hb => (evenStars_star c b).mpr hb
    rw [ih hfirst]
    rfl
  | case5 c cs hnil hslash hcons ih =>
    have hc : c ≠ '*' := ne_star_of_cases hnil hcons
    obtain ⟨b, rfl, hstands⟩ := starSlash_other hc h.toStarSlash
    have hfirst : FirstStarSlash EvenStars cs b after :=
      FirstStarSlash.of_append [c] h hstands fun b hb => (evenStars_cons hc b).mpr hb
    rw [ih hfirst]
    rfl

private theorem covers_of_first {text body after : List Char} (h : FirstStarSlash EvenStars text body after) :
    blockComment.Covers (.plain ('/' :: '*' :: (body ++ ['*', '/']))) after :=
  .blockComment (throughStarSlash?_eq_some_iff.mp (throughStarSlash?_of_first h)).2

/-! A form that is found at a place in a query begins a token there, unless a comment or a quoted text runs
over the place. -/

/-- The token is a comment or a quoted text. -/
def Token.Hides (t : Token) : Prop :=
  ∃ (form : Form) (rest : List Char), form.Covers (.plain t.text.toList) rest

/-- Byte `n` of a query stands inside no comment and inside no quoted text that begins before it. -/
def Unhidden (query : String) (n : Nat) : Prop :=
  ∀ t ∈ lex query, t.Hides → ¬ (t.span.start < n ∧ n < t.span.stop)

private theorem eq_plain_of_covers {form : Form} {l : Lexeme} {rest : List Char} (h : form.Covers l rest)
    (hp : ¬ l.kind.isParameter) : l = .plain l.text := by
  cases h with
  | lineComment | blockComment | singleQuoted | doubleQuoted | backquoted => rfl
  | _ => exact absurd rfl hp

namespace Piece

private theorem covers_of_begins_inside {p : Piece} {front back rest : List Char} (h : p.Fits rest)
    (htext : p.text = front ++ back) (hfront : front ≠ []) (hback : back ≠ []) {form : Form}
    (hb : form.Begins (back ++ rest)) : ∃ form' : Form, form'.Covers (.plain p.text) rest := by
  cases p with
  | gap text => exact absurd hb (h back ⟨front, htext.symm⟩ hback form)
  | lexeme l =>
    obtain ⟨form', hl⟩ := h
    have hplain : ¬ l.kind.isParameter := by
      intro hp
      obtain ⟨c, cs, rfl⟩ := List.exists_cons_of_ne_nil hfront
      obtain ⟨d, ds, rfl⟩ := List.exists_cons_of_ne_nil hback
      have htail : l.text.tail = cs ++ d :: ds := congrArg List.tail htext
      have hd : isOpening d = false := isOpening_of_mem_tail hl hp d (by simp [htail])
      rw [isOpening_of_begins hb] at hd
      cases hd
    rw [eq_plain_of_covers hl hplain] at hl
    exact ⟨form', hl⟩

private theorem exists_cut {pieces : List Piece} {before back : List Char} (h : FitAll pieces [])
    (hcut : pieces.flatMap text = before ++ back) {form : Form} (hb : form.Begins back) {start : Nat}
    (hfree : ∀ t ∈ tokens start pieces, t.Hides →
      ¬ (t.span.start < start + Text.width before ∧ start + Text.width before < t.span.stop)) :
    ∃ ps qs, pieces = ps ++ qs ∧ ps.flatMap text = before ∧ qs.flatMap text = back := by
  induction pieces generalizing before start with
  | nil =>
    obtain ⟨hbefore, hback⟩ := List.append_eq_nil_iff.mp hcut.symm
    exact ⟨[], [], rfl, hbefore.symm, hback.symm⟩
  | cons p pieces ih =>
    rw [FitAll, List.append_nil] at h
    rw [List.flatMap_cons] at hcut
    rw [tokens, List.forall_mem_cons, span_token] at hfree
    rcases List.append_eq_append_iff.mp hcut with ⟨between, hbefore, hrest⟩ | ⟨inside, htext, hback⟩
    · -- The piece ends before the place, or at it.
      have hnext : start + Text.width before = start + Text.width p.text + Text.width between := by
        rw [hbefore, Text.width_append, Nat.add_assoc]
      obtain ⟨ps, qs, hpieces, hps, hqs⟩ := ih h.2 hrest (by rw [← hnext]; exact hfree.2)
      exact ⟨p :: ps, qs, by rw [hpieces]; rfl, by rw [List.flatMap_cons, hps, hbefore], hqs⟩
    · by_cases hbefore : before = []
      · exact ⟨[], p :: pieces, rfl, hbefore.symm, by rw [List.flatMap_cons, hcut, hbefore]; rfl⟩
      · by_cases hinside : inside = []
        · subst hinside
          refine ⟨[p], pieces, rfl, ?_, ?_⟩
          · simpa using htext
          · simpa using hback.symm
        · exfalso
          rw [hback] at hb
          obtain ⟨form', hl⟩ := covers_of_begins_inside h.1 htext hbefore hinside hb
          apply hfree.1
          · exact ⟨form', _, by rw [toList_text_token]; exact hl⟩
          · have hwidth : Text.width p.text = Text.width before + Text.width inside := by
              rw [htext, Text.width_append]
            have hpos := Text.width_pos hbefore
            have hpos' := Text.width_pos hinside
            show start < _ ∧ _ < start + Text.width p.text
            omega

end Piece

/-- What a form covers at an unhidden place is one token. The tokens before it cover what stands before, and
those after it are the tokens of the text behind, read on its own. -/
theorem lex_of_covers {query : String} {before rest : List Char} {form : Form} {l : Lexeme}
    (hquery : query.toList = before ++ (l.text ++ rest)) (hl : form.Covers l rest)
    (hfree : Unhidden query (Text.width before)) :
    ∃ ts, lex query = ts ++ (Piece.lexeme l).token (Text.width before) ::
        (lex (String.ofList rest)).map (Token.shift (Text.width (before ++ l.text))) ∧
      Tiles 0 (Text.width before) ts := by
  have hsplits := Piece.splits_split query.toList
  have hcut := (Piece.flatMap_text_of_splits hsplits).trans hquery
  have hb : form.Begins (l.text ++ rest) := ⟨l, rest, rfl, hl⟩
  have hfree' : ∀ t ∈ Piece.tokens 0 (Piece.split all query.toList), t.Hides →
      ¬ (t.span.start < 0 + Text.width before ∧ 0 + Text.width before < t.span.stop) := by
    rw [Nat.zero_add]
    exact hfree
  obtain ⟨ps, qs, hpieces, hps, hqs⟩ := Piece.exists_cut (Piece.fitAll_of_splits hsplits) hcut hb hfree'
  rw [hpieces] at hsplits
  have hrest : qs = .lexeme l :: Piece.split all rest := by
    rw [← Piece.split_lexeme hl, ← hqs]
    exact Piece.splits_iff.mp (Piece.splits_append hsplits).2
  refine ⟨Piece.tokens 0 ps, ?_, ?_⟩
  · rw [lex, lexBy, hpieces, Piece.tokens_append, hps, hrest, Piece.tokens, Nat.zero_add, lex, lexBy,
      String.toList_ofList, ← Piece.tokens_add, Nat.add_zero, Text.width_append]
    rfl
  · have hne := Piece.text_ne_nil_of_splits hsplits
    have htiles := Piece.tiles_tokens (fun p hp => hne p (List.mem_append_left qs hp)) 0
    rwa [hps, Nat.zero_add] at htiles

/-- The token of a comment that begins at byte `start`, with `body` between its slash-star and its
star-slash. -/
def Token.blockComment (start : Nat) (body : List Char) : Token :=
  let text := '/' :: '*' :: (body ++ ['*', '/'])
  .other (String.ofList text) ⟨start, start + Text.width text⟩

/-- A slash-star that is not hidden begins a comment, which ends at the first star-slash behind it with an even
number of stars right before. The comment is one token, and what stands behind it has the tokens that it has
on its own. -/
theorem lex_blockComment {query : String} {before text body after : List Char}
    (hquery : query.toList = before ++ '/' :: '*' :: text) (hfree : Unhidden query (Text.width before))
    (hclose : FirstStarSlash EvenStars text body after) :
    ∃ ts, lex query = ts ++ Token.blockComment (Text.width before) body ::
        (lex (String.ofList after)).map
          (Token.shift (Token.blockComment (Text.width before) body).span.stop) ∧
      Tiles 0 (Text.width before) ts := by
  have hcovers := covers_of_first hclose
  have htext : query.toList = before ++ ('/' :: '*' :: (body ++ ['*', '/']) ++ after) := by
    rw [hquery, hclose.text_eq]
    simp
  have hlex := lex_of_covers htext hcovers hfree
  rw [Text.width_append] at hlex
  exact hlex

/-- The first close is no close, because the stars before it are odd in number; the second one is. -/
theorem lex_comment_with_stars :
    Unhidden "x /* ? **/ ?***/ $1" 2 ∧
      FirstStarSlash EvenStars " ? **/ ?***/ $1".toList " ? **/ ?**".toList " $1".toList ∧
      ∃ ts, lex "x /* ? **/ ?***/ $1" = ts ++ Token.other "/* ? **/ ?***/" ⟨2, 16⟩ ::
        (lex " $1").map (Token.shift 16) ∧ Tiles 0 2 ts := by
  have hfree : Unhidden "x /* ? **/ ?***/ $1" 2 := by
    have hstraddle : ∀ t ∈ lex "x /* ? **/ ?***/ $1", ¬ (t.span.start < 2 ∧ 2 < t.span.stop) := by
      decide +kernel
    exact fun t ht _ => hstraddle t ht
  have hclose : FirstStarSlash EvenStars " ? **/ ?***/ $1".toList " ? **/ ?**".toList " $1".toList := by
    decide +kernel
  refine ⟨hfree, hclose, ?_⟩
  have hquery : "x /* ? **/ ?***/ $1".toList = ['x', ' '] ++ '/' :: '*' :: " ? **/ ?***/ $1".toList := by
    decide +kernel
  exact lex_blockComment hquery hfree hclose

/-- A comment does not always end at the first star-slash: two stars before a slash do not close it, and the
placeholder in it is found. -/
theorem not_lex_through_first_starSlash :
    ¬ ∀ (query : String) (before text body after : List Char), query.toList = before ++ '/' :: '*' :: text →
      Unhidden query (Text.width before) → FirstStarSlash (fun _ => True) text body after →
      ∃ t ∈ lex query, t.kind = .other ∧ t.span = (Token.blockComment (Text.width before) body).span := by
  intro h
  have hclose : FirstStarSlash (fun _ => True) " ? **/".toList " ? *".toList [] := by decide +kernel
  have hfree : Unhidden "/* ? **/" (Text.width []) := by
    rintro t _ _ ⟨hlt, _⟩
    exact absurd hlt (Nat.not_lt_zero _)
  have hall : ¬ ∃ t ∈ lex "/* ? **/",
      t.kind = .other ∧ t.span = (Token.blockComment (Text.width []) " ? *".toList).span := by
    decide +kernel
  exact hall (h "/* ? **/" [] " ? **/".toList " ? *".toList [] (by decide +kernel) hfree hclose)

end Placeholder
