import Placeholder.Token.Form

/-!
The pieces of a query: at each place the lexeme found there, and between lexemes gaps of plain text. The
tokens of a query are its pieces with their places.
-/
namespace Placeholder

/-- A lexeme, or a stretch of text in which no lexeme begins. -/
inductive Piece
  | gap (text : List Char)
  | lexeme (l : Lexeme)
deriving DecidableEq, Repr

namespace Piece

def text : Piece → List Char
  | .gap text => text
  | .lexeme l => l.text

/-- Puts one character of plain text before the pieces, into the gap at their front if there is one. -/
def consGap (c : Char) : List Piece → List Piece
  | .gap text :: pieces => .gap (c :: text) :: pieces
  | pieces => .gap [c] :: pieces

/-- The pieces of a text when the given forms are tried in order at each place. -/
def split (forms : List Form) : List Char → List Piece
  | [] => []
  | c :: cs =>
    match _ : Form.first? forms (c :: cs) with
    | some (l, rest) => .lexeme l :: split forms rest
    | none => consGap c (split forms cs)
termination_by cs => cs.length
decreasing_by
  · exact Form.length_lt_of_first? ‹_›
  · simp

def token (start : Nat) (p : Piece) : Token :=
  let span : Span := ⟨start, start + Text.width p.text⟩
  match p with
  | .gap text => .other (String.ofList text) span
  | .lexeme l => ⟨l.kind, String.ofList l.text, String.ofList l.inside, span⟩

/-- The tokens of pieces that follow one another from byte `start` on. -/
def tokens (start : Nat) : List Piece → List Token
  | [] => []
  | p :: pieces => p.token start :: tokens (start + Text.width p.text) pieces

@[simp] theorem flatMap_text_consGap (c : Char) (pieces : List Piece) :
    (consGap c pieces).flatMap text = c :: pieces.flatMap text := by
  fun_cases consGap c pieces <;> simp [text]

/-- The pieces hold the whole text, in order. -/
@[simp] theorem flatMap_text_split (forms : List Form) (cs : List Char) :
    (split forms cs).flatMap text = cs := by
  fun_induction split forms cs with
  | case1 => rfl
  | case2 c cs l rest h ih => simpa [text, ih] using (Form.first?_append h).symm
  | case3 c cs h ih => simp [ih]

@[simp] theorem toList_text_token (start : Nat) (p : Piece) : (p.token start).text.toList = p.text := by
  cases p <;> simp [token, text, Token.other]

theorem span_token (start : Nat) (p : Piece) : (p.token start).span = ⟨start, start + Text.width p.text⟩ := by
  cases p <;> simp [token, Token.other]

theorem exists_of_mem_tokens {start : Nat} {pieces : List Piece} {t : Token} (h : t ∈ tokens start pieces) :
    ∃ p ∈ pieces, ∃ n, t = p.token n := by
  induction pieces generalizing start with
  | nil => simp [tokens] at h
  | cons p pieces ih =>
    rcases List.mem_cons.mp h with rfl | ht
    · exact ⟨p, List.mem_cons_self, start, rfl⟩
    · obtain ⟨q, hq, n, hn⟩ := ih ht
      exact ⟨q, List.mem_cons_of_mem p hq, n, hn⟩

theorem map_text_tokens (start : Nat) (pieces : List Piece) :
    (tokens start pieces).map Token.text = (pieces.map text).map String.ofList := by
  induction pieces generalizing start with
  | nil => rfl
  | cons p pieces ih =>
    have htext : (p.token start).text = String.ofList p.text := by simp [← String.toList_inj]
    rw [tokens, List.map_cons, ih, htext, List.map_cons, List.map_cons]

/-- The tokens of pieces have the text of the pieces. -/
theorem toList_render_tokens (start : Nat) (pieces : List Piece) :
    (Token.render (tokens start pieces)).toList = pieces.flatMap text := by
  rw [Token.render, map_text_tokens, String.toList_join]
  simp [List.flatMap_map]

end Piece

/-- The tokens of a query when the given forms are tried in order at each place. -/
def lexBy (forms : List Form) (query : String) : List Token :=
  Piece.tokens 0 (Piece.split forms query.toList)

/-- The tokens of a query. -/
def lex (query : String) : List Token :=
  lexBy Form.all query

@[simp] theorem render_lexBy (forms : List Form) (query : String) :
    Token.render (lexBy forms query) = query := by
  rw [← String.toList_inj, lexBy, Piece.toList_render_tokens, Piece.flatMap_text_split]

end Placeholder
