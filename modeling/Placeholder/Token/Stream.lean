import Placeholder.Token.Piece

/-! Tokens on demand: a query read from the front, one token at a time. -/
namespace Placeholder

/-- What is left of a query: the unread text from byte `offset` on, and before it perhaps a token that has
been read but not given out. -/
structure TokenStream where
  pending : Option Token
  offset : Nat
  unread : List Char
deriving Repr

namespace TokenStream

def ofQuery (query : String) : TokenStream :=
  ⟨none, 0, query.toList⟩

/-- The next lexeme, with the plain text before it and the text after it. -/
def nextLexeme? : List Char → Option (List Char × Lexeme × List Char)
  | [] => none
  | c :: cs =>
    match Form.first? Form.all (c :: cs) with
    | some (l, rest) => some ([], l, rest)
    | none => (nextLexeme? cs).map fun (gap, l, rest) => (c :: gap, l, rest)

private theorem length_lt_of_nextLexeme? {cs gap rest : List Char} {l : Lexeme}
    (h : nextLexeme? cs = some (gap, l, rest)) : rest.length < cs.length := by
  fun_induction nextLexeme? cs generalizing gap with
  | case1 => simp at h
  | case2 c cs l' rest' hf =>
    cases h
    exact Form.length_lt_of_first? hf
  | case3 c cs hf ih =>
    obtain ⟨⟨g, l', r⟩, hn, heq⟩ := Option.map_eq_some_iff.1 h
    cases heq
    exact Nat.lt_succ_of_lt (ih hn)

/-- The next token and the stream after it. A lexeme behind a gap waits while the gap is given out. -/
def next? (s : TokenStream) : Option (Token × TokenStream) :=
  match s.pending with
  | some t => some (t, { s with pending := none })
  | none =>
    match nextLexeme? s.unread with
    | some ([], l, rest) =>
      some ((Piece.lexeme l).token s.offset, ⟨none, s.offset + Text.width l.text, rest⟩)
    | some (gap, l, rest) =>
      let start := s.offset + Text.width gap
      some ((Piece.gap gap).token s.offset,
        ⟨some ((Piece.lexeme l).token start), start + Text.width l.text, rest⟩)
    | none =>
      if s.unread = [] then none
      else some ((Piece.gap s.unread).token s.offset, ⟨none, s.offset + Text.width s.unread, []⟩)

def size (s : TokenStream) : Nat :=
  2 * s.unread.length + s.pending.toList.length

private theorem size_lt_of_next? {s s' : TokenStream} {t : Token} (h : s.next? = some (t, s')) :
    s'.size < s.size := by
  unfold next? at h
  split at h
  · next t' hp =>
    cases h
    simp [size, hp]
  · next hp =>
    split at h
    · next l rest hn =>
      cases h
      have := length_lt_of_nextLexeme? hn
      simp [size, hp]
      omega
    · next gap l rest _ hn =>
      cases h
      have := length_lt_of_nextLexeme? hn
      simp [size, hp]
      omega
    · split at h
      · cases h
      · next hu =>
        cases h
        have := List.length_pos_iff.2 hu
        simp [size, hp]
        omega

def tokens (s : TokenStream) : List Token :=
  match _ : s.next? with
  | none => []
  | some (t, s') => t :: tokens s'
termination_by s.size
decreasing_by exact size_lt_of_next? ‹_›

/-- The answers when the next token is asked for `n` times, and the stream after that. -/
def take : Nat → TokenStream → List (Option Token) × TokenStream
  | 0, s => ([], s)
  | n + 1, s =>
    match s.next? with
    | none =>
      let (answers, s') := take n s
      (none :: answers, s')
    | some (t, s') =>
      let (answers, s'') := take n s'
      (some t :: answers, s'')

end TokenStream
end Placeholder
