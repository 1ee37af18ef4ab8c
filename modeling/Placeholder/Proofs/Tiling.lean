import Placeholder.Proofs.Boundaries
import Placeholder.Proofs.Streaming

/-!
The tokens of a query tile it: nothing of the query is lost, nothing is in two tokens, and every token has its
place in the query.
-/
namespace Placeholder

/-- The tokens cover the bytes from `start` to `stop`, each at least one byte, without gap or overlap. -/
def Tiles (start stop : Nat) : List Token → Prop
  | [] => start = stop
  | t :: ts => t.span.start = start ∧ start < t.span.stop ∧ Tiles t.span.stop stop ts

/-- The token stands in the query at the place that its span says, between two characters. -/
structure StandsIn (query : String) (t : Token) : Prop where
  nonempty : t.text ≠ ""
  slice : t.span.slice query = some t.text
  place : ∃ before after, query = before ++ t.text ++ after ∧ t.span.start = before.utf8ByteSize ∧
    t.span.stop = (before ++ t.text).utf8ByteSize

theorem Piece.tiles_tokens {pieces : List Piece} (h : ∀ p ∈ pieces, p.text ≠ []) (start : Nat) :
    Tiles start (start + Text.width (pieces.flatMap text)) (tokens start pieces) := by
  induction pieces generalizing start with
  | nil => simp [tokens, Tiles]
  | cons p pieces ih =>
    have hp := Text.width_pos (h p List.mem_cons_self)
    have hrest := ih (fun q hq => h q (List.mem_cons_of_mem p hq)) (start + Text.width p.text)
    rw [tokens, Tiles, span_token, List.flatMap_cons, Text.width_append, ← Nat.add_assoc]
    refine ⟨rfl, ?_, hrest⟩
    show start < start + Text.width p.text
    omega

private theorem text_ne_empty_of_mem_lex {query : String} {t : Token} (ht : t ∈ lex query) : t.text ≠ "" := by
  obtain ⟨p, hp, n, rfl⟩ := Piece.exists_of_mem_tokens ht
  have hne := Piece.text_ne_nil_of_splits (Piece.splits_split query.toList) p hp
  intro hempty
  apply hne
  rw [← Piece.toList_text_token n p, hempty, String.toList_empty]

private theorem Token.bytes_eq (ts : List Token) : bytes ts = (render ts).utf8ByteSize := by
  simp [bytes]

theorem standsIn_of_mem_lex {query : String} {t : Token} (ht : t ∈ lex query) : StandsIn query t := by
  obtain ⟨before, after, hlex⟩ := List.append_of_mem ht
  have hspan := span_of_lex_append hlex
  have hcut : lex query = before ++ ([t] ++ after) := by simpa using hlex
  constructor
  · exact text_ne_empty_of_mem_lex ht
  · rw [hspan, slice_of_lex_append hcut, Token.render_singleton]
  · have hquery : query = Token.render before ++ t.text ++ Token.render after := by
      rw [← Token.render_singleton t, ← Token.render_append, ← Token.render_append, List.append_assoc, ← hcut,
        lex, render_lexBy]
    refine ⟨Token.render before, Token.render after, hquery, ?_, ?_⟩
    · simp only [hspan, Token.bytes_eq]
    · simp only [hspan, Token.bytes_eq, Token.render_append, Token.render_singleton]

/-- The tokens of a query cover it from its first byte to its last, and each of them is the text at its place
in the query, so that together they give the query back. Read one by one they are the same tokens, and when
they have been given out nothing more comes. -/
theorem lex_tiles_query (query : String) :
    Tiles 0 query.utf8ByteSize (lex query) ∧ (∀ t ∈ lex query, StandsIn query t) ∧
      Token.render (lex query) = query ∧ (TokenStream.ofQuery query).tokens = lex query ∧
      ∀ n, ((TokenStream.ofQuery query).take ((lex query).length + n)).1 =
        (lex query).map some ++ List.replicate n none := by
  refine ⟨?_, fun t ht => standsIn_of_mem_lex ht, ?_, ?_, fun n => ?_⟩
  · have hne := Piece.text_ne_nil_of_splits (Piece.splits_split query.toList)
    have htiles := Piece.tiles_tokens hne 0
    rwa [Piece.flatMap_text_split, Text.width_toList, Nat.zero_add] at htiles
  · rw [lex, render_lexBy]
  · rw [TokenStream.tokens_eq_remaining, TokenStream.remaining_ofQuery]
  · rw [(TokenStream.take_eq _ _).1, TokenStream.remaining_ofQuery,
      List.take_of_length_le (Nat.le_add_right _ _), Nat.add_sub_cancel_left]

end Placeholder
