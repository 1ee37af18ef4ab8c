import Placeholder.Proofs.Splitting

/-!
Queries cut between two of their tokens. A form looks far ahead for its end, but what it finds before the cut
it finds without the text behind, and what it does not find with that text it does not find without: both
parts have the tokens that they had in the whole.
-/
namespace Placeholder
open Lexeme

theorem Lexeme.Stops.of_append {p : Char → Bool} {cs ds : List Char} (h : Stops p (cs ++ ds)) :
    Stops p cs := by
  intro c hc
  refine h c ?_
  rw [List.head?_append, Option.mem_def.mp hc]
  rfl

namespace Form

/-- A form that is found at the front of a text is found there when the text goes on. -/
theorem Begins.append {form : Form} {cs : List Char} (h : form.Begins cs) (ds : List Char) :
    form.Begins (cs ++ ds) := by
  obtain ⟨l, rest, rfl, hl⟩ := h
  rw [List.append_assoc]
  -- The runs of three forms may go on into the new text; the others end where they ended.
  cases hl with
  | lineComment _ => exact begins_lineComment_iff.mpr ⟨_, rfl⟩
  | blockComment hb => exact ⟨_, rest ++ ds, rfl, .blockComment hb⟩
  | singleQuoted hb => exact ⟨_, rest ++ ds, rfl, .singleQuoted hb⟩
  | doubleQuoted hb => exact ⟨_, rest ++ ds, rfl, .doubleQuoted hb⟩
  | backquoted hb => exact ⟨_, rest ++ ds, rfl, .backquoted hb⟩
  | implicit => exact ⟨_, rest ++ ds, rfl, .implicit⟩
  | explicit hs hn =>
    obtain ⟨d, cs, rfl, hd⟩ := exists_cons_of_natural hn
    exact begins_explicit_iff.mpr ⟨_, d, _, rfl, by simpa [isIndexSigil, or_assoc] using hs, hd⟩
  | named hs hi =>
    obtain ⟨c, cs, rfl, hc, _⟩ := hi
    exact begins_named_iff.mpr ⟨_, c, _, rfl, by simpa [isNameSigil] using hs, hc⟩
  | percentNamed hi =>
    obtain ⟨c, name, rfl, hc, hn, _⟩ := hi
    exact begins_percentNamed_iff.mpr ⟨c, name, rest ++ ds, by simp, hc, hn⟩

/-- What a form covers it covers also when the text after it is cut short. -/
theorem Covers.of_append {form : Form} {l : Lexeme} {cs ds : List Char} (h : form.Covers l (cs ++ ds)) :
    form.Covers l cs := by
  cases h with
  | lineComment hb =>
    rcases hb with ⟨hn, hnil⟩ | hb
    · exact .lineComment (Or.inl ⟨hn, (List.append_eq_nil_iff.mp hnil).1⟩)
    · exact .lineComment (Or.inr hb)
  | blockComment hb => exact .blockComment hb
  | singleQuoted hb => exact .singleQuoted hb
  | doubleQuoted hb => exact .doubleQuoted hb
  | backquoted hb => exact .backquoted hb
  | implicit => exact .implicit
  | explicit hs hn =>
    rcases hn with hz | ⟨d, digits, rfl, h0, hd, hds, hstop⟩
    · exact .explicit hs (Or.inl hz)
    · exact .explicit hs (Or.inr ⟨d, digits, rfl, h0, hd, hds, hstop.of_append⟩)
  | named hs hi =>
    obtain ⟨c, name, rfl, hc, hn, hstop⟩ := hi
    exact .named hs ⟨c, name, rfl, hc, hn, hstop.of_append⟩
  | percentNamed hi =>
    obtain ⟨c, name, rfl, hc, hn, hstop⟩ := hi
    exact .percentNamed ⟨c, name, rfl, hc, hn, hstop⟩

end Form

namespace Piece

theorem Silent.of_append {text cs ds : List Char} (h : Silent text (cs ++ ds)) : Silent text cs := by
  intro after ha hne form hb
  refine h after ha hne form ?_
  rw [← List.append_assoc]
  exact hb.append ds

/-- Where a form is found, or nothing is left, no gap begins. -/
theorem exists_lexeme_of_splits {cs : List Char} {p : Piece} {pieces : List Piece}
    (hb : cs = [] ∨ ∃ form : Form, form.Begins cs) (h : Splits cs (p :: pieces)) :
    ∃ l, p = .lexeme l := by
  cases h with
  | lexeme _ _ => exact ⟨_, rfl⟩
  | @gap text rest _ ht hs _ _ =>
    rcases hb with hnil | ⟨form, hb⟩
    · exact absurd (List.append_eq_nil_iff.mp hnil).1 ht
    · exact absurd hb (hs text List.suffix_rfl ht form)

theorem begins_of_splits {cs : List Char} {l : Lexeme} {pieces : List Piece}
    (h : Splits cs (.lexeme l :: pieces)) : ∃ form : Form, form.Begins cs := by
  cases h with
  | lexeme hl _ => exact ⟨_, l, _, rfl, hl⟩

/-- Some of the pieces at the front are the pieces of their own text, and so are the pieces after them. -/
theorem splits_append {cs : List Char} {ps qs : List Piece} (h : Splits cs (ps ++ qs)) :
    Splits (ps.flatMap text) ps ∧ Splits (qs.flatMap text) qs := by
  induction ps generalizing cs with
  | nil =>
    have hqs : Splits cs qs := h
    exact ⟨.nil, by rwa [flatMap_text_of_splits hqs]⟩
  | cons p ps ih =>
    rw [List.cons_append] at h
    cases h with
    | @lexeme form l rest _ hl hs =>
      obtain ⟨hps, hqs⟩ := ih hs
      rw [← flatMap_text_of_splits hs, List.flatMap_append] at hl
      exact ⟨.lexeme hl.of_append hps, hqs⟩
    | @gap text rest _ ht hsilent hb hs =>
      obtain ⟨hps, hqs⟩ := ih hs
      rw [← flatMap_text_of_splits hs, List.flatMap_append] at hsilent
      refine ⟨.gap ht hsilent.of_append ?_ hps, hqs⟩
      -- What ended the gap is still there, as long as a piece is left.
      cases ps with
      | nil => exact Or.inl rfl
      | cons q ps =>
        obtain ⟨l, rfl⟩ := exists_lexeme_of_splits hb hs
        exact Or.inr (begins_of_splits hps)

theorem tokens_append (start : Nat) (ps qs : List Piece) :
    tokens start (ps ++ qs) = tokens start ps ++ tokens (start + Text.width (ps.flatMap text)) qs := by
  induction ps generalizing start with
  | nil => rfl
  | cons p ps ih =>
    rw [List.cons_append, tokens, tokens, ih, List.flatMap_cons, Text.width_append, Nat.add_assoc,
      List.cons_append]

private theorem token_add (n start : Nat) (p : Piece) : p.token (n + start) = (p.token start).shift n := by
  cases p <;> simp [token, Token.shift, Span.shift, Token.other, Nat.add_assoc]

/-- Pieces that stand further on have the same tokens, further on. -/
theorem tokens_add (n start : Nat) (pieces : List Piece) :
    tokens (n + start) pieces = (tokens start pieces).map (Token.shift n) := by
  induction pieces generalizing start with
  | nil => rfl
  | cons p pieces ih => rw [tokens, tokens, List.map_cons, token_add, Nat.add_assoc, ih]

private theorem exists_of_tokens_eq_append {start : Nat} {pieces : List Piece} {ts us : List Token}
    (h : tokens start pieces = ts ++ us) :
    ∃ ps qs, pieces = ps ++ qs ∧ tokens start ps = ts ∧
      tokens (start + Text.width (ps.flatMap text)) qs = us := by
  induction ts generalizing start pieces with
  | nil => exact ⟨[], pieces, rfl, rfl, h⟩
  | cons t ts ih =>
    cases pieces with
    | nil => cases h
    | cons p pieces =>
      obtain ⟨rfl, hrest⟩ := List.cons.inj h
      obtain ⟨ps, qs, rfl, rfl, rfl⟩ := ih hrest
      refine ⟨p :: ps, qs, rfl, rfl, ?_⟩
      rw [List.flatMap_cons, Text.width_append, Nat.add_assoc]

end Piece

/-- A span slices a text to what it covers. -/
theorem Span.slice_eq_some {source : String} {before covered after : List Char}
    (h : source.toList = before ++ (covered ++ after)) :
    (⟨Text.width before, Text.width before + Text.width covered⟩ : Span).slice source =
      some (String.ofList covered) := by
  have hlength : (⟨Text.width before, Text.width before + Text.width covered⟩ : Span).length? =
      some (Text.width covered) := by
    rw [length?, if_pos (Nat.le_add_right _ _), Nat.add_sub_cancel_left]
  have htail : Text.splitAt? (Text.width before) source.toList = some (before, covered ++ after) :=
    Text.splitAt?_eq_some_iff.mpr ⟨h, rfl⟩
  have hcovered : Text.splitAt? (Text.width covered) (covered ++ after) = some (covered, after) :=
    Text.splitAt?_eq_some_iff.mpr ⟨rfl, rfl⟩
  rw [slice, hlength]
  simp only [Option.bind_eq_bind, Option.bind_some, htail, hcovered]
  rfl

theorem Token.render_singleton (t : Token) : render [t] = t.text := by
  rw [← String.toList_inj, toList_render, List.flatMap_singleton]

def Token.bytes (ts : List Token) : Nat :=
  Text.width (Token.render ts).toList

theorem Token.bytes_append (ts us : List Token) : bytes (ts ++ us) = bytes ts + bytes us := by
  rw [bytes, render_append, String.toList_append, Text.width_append]
  rfl

/-- The text of tokens at the front of a query has these tokens, and the text of the tokens after them has
those, but for the distance to the front. -/
theorem lex_render_of_append {query : String} {ts us : List Token} (h : lex query = ts ++ us) :
    lex (Token.render ts) = ts ∧ (lex (Token.render us)).map (Token.shift (Token.bytes ts)) = us := by
  obtain ⟨ps, qs, hpieces, rfl, rfl⟩ := Piece.exists_of_tokens_eq_append h
  have hs : Piece.Splits query.toList (ps ++ qs) := hpieces ▸ Piece.splits_split query.toList
  obtain ⟨hps, hqs⟩ := Piece.splits_append hs
  constructor
  · rw [lex, lexBy, Piece.toList_render_tokens, ← Piece.splits_iff.mp hps]
  · rw [lex, lexBy, Token.bytes, Piece.toList_render_tokens, Piece.toList_render_tokens,
      ← Piece.splits_iff.mp hqs, ← Piece.tokens_add, Nat.zero_add, Nat.add_zero]

private theorem toList_of_lex_append {query : String} {ts us : List Token} (h : lex query = ts ++ us) :
    query.toList = (Token.render ts).toList ++ (Token.render us).toList := by
  rw [← String.toList_append, ← Token.render_append, ← h, lex, render_lexBy]

/-- A token begins where the tokens before it end, and ends after its own text. -/
theorem span_of_lex_append {query : String} {before after : List Token} {t : Token}
    (h : lex query = before ++ t :: after) :
    t.span = ⟨Token.bytes before, Token.bytes (before ++ [t])⟩ := by
  obtain ⟨ps, qs, _, rfl, hqs⟩ := Piece.exists_of_tokens_eq_append h
  cases qs with
  | nil => cases hqs
  | cons p qs =>
    obtain ⟨rfl, _⟩ := List.cons.inj hqs
    have hone : Piece.tokens 0 ps ++ [p.token (0 + Text.width (ps.flatMap Piece.text))] =
        Piece.tokens 0 (ps ++ [p]) := by
      rw [Piece.tokens_append]
      rfl
    rw [hone, Token.bytes, Token.bytes, Piece.toList_render_tokens, Piece.toList_render_tokens,
      List.flatMap_append, Text.width_append, List.flatMap_singleton, Piece.span_token, Nat.zero_add]

/-- The span from one token of a query to another slices it to the text of the tokens in between. -/
theorem slice_of_lex_append {query : String} {ts us vs : List Token} (h : lex query = ts ++ (us ++ vs)) :
    (⟨Token.bytes ts, Token.bytes (ts ++ us)⟩ : Span).slice query = some (Token.render us) := by
  have htext : query.toList =
      (Token.render ts).toList ++ ((Token.render us).toList ++ (Token.render vs).toList) := by
    rw [toList_of_lex_append h, Token.render_append, String.toList_append]
  rw [Token.bytes_append, Token.bytes, Token.bytes, Span.slice_eq_some htext, String.ofList_toList]

theorem slice_front_of_lex_append {query : String} {ts us : List Token} (h : lex query = ts ++ us) :
    (⟨0, Token.bytes ts⟩ : Span).slice query = some (Token.render ts) := by
  have hfront : lex query = [] ++ (ts ++ us) := h
  exact slice_of_lex_append hfront

private theorem splitAt?_of_lex_append {query : String} {ts us : List Token} (h : lex query = ts ++ us) :
    Text.splitAt? (Token.bytes ts) query.toList =
      some ((Token.render ts).toList, (Token.render us).toList) :=
  Text.splitAt?_eq_some_iff.mpr ⟨toList_of_lex_append h, rfl⟩

/-- The tokens of a query cut at the start or the end of one of its tokens are the tokens of the two parts,
those of the second moved behind the first. -/
theorem lex_eq_append_of_boundary {query : String} {t : Token} (ht : t ∈ lex query) {b : Nat}
    (hb : b = t.span.start ∨ b = t.span.stop) :
    ∃ before after, Text.splitAt? b query.toList = some (before, after) ∧
      lex query = lex (String.ofList before) ++ (lex (String.ofList after)).map (Token.shift b) := by
  have hcut : ∀ ts us, lex query = ts ++ us → b = Token.bytes ts →
      ∃ before after, Text.splitAt? b query.toList = some (before, after) ∧
        lex query = lex (String.ofList before) ++ (lex (String.ofList after)).map (Token.shift b) := by
    rintro ts us h rfl
    obtain ⟨hts, hus⟩ := lex_render_of_append h
    refine ⟨_, _, splitAt?_of_lex_append h, ?_⟩
    rw [String.ofList_toList, String.ofList_toList, hts, hus]
    exact h
  obtain ⟨before, after, h⟩ := List.append_of_mem ht
  have hspan := span_of_lex_append h
  rcases hb with rfl | rfl
  · exact hcut before (t :: after) h (by rw [hspan])
  · exact hcut (before ++ [t]) after (by rw [h, List.append_assoc]; rfl) (by rw [hspan])

/-- The quote that is not closed does not matter to what comes before the comment or after it. -/
theorem lex_cut_before_comment :
    Token.implicit ⟨3, 4⟩ ∈ lex "'é?-- :a\n?" ∧
      ∃ before after, Text.splitAt? 4 "'é?-- :a\n?".toList = some (before, after) ∧
        lex "'é?-- :a\n?" = lex (String.ofList before) ++ (lex (String.ofList after)).map (Token.shift 4) := by
  have hmem : Token.implicit ⟨3, 4⟩ ∈ lex "'é?-- :a\n?" := by decide +kernel
  exact ⟨hmem, lex_eq_append_of_boundary hmem (Or.inr rfl)⟩

end Placeholder
