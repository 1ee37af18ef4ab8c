import Placeholder.Token.Stream
import Placeholder.Proofs.Splitting

/-!
Tokens on demand. What a stream has left to give out is a list of tokens, and each time it is asked it gives
out the first of them; so a query read in this way has the tokens that it has when it is read at once.
-/
namespace Placeholder.TokenStream
open Form Piece

/-- What the stream has left: the token that waits, and the tokens of the unread text. -/
def remaining (s : TokenStream) : List Token :=
  s.pending.toList ++ Piece.tokens s.offset (split all s.unread)

@[simp] theorem remaining_ofQuery (query : String) : (ofQuery query).remaining = lex query := by
  simp [remaining, ofQuery, lex, lexBy]

private theorem split_of_nextLexeme?_eq_some {cs gap rest : List Char} {l : Lexeme}
    (h : nextLexeme? cs = some (gap, l, rest)) :
    split all cs = gap.foldr consGap (.lexeme l :: split all rest) := by
  fun_induction nextLexeme? cs generalizing gap with
  | case1 => simp at h
  | case2 c cs l' rest' hf =>
    cases h
    obtain ⟨heq, form, hl⟩ := first?_all_eq_some_iff.mp hf
    rw [heq]
    exact split_lexeme hl
  | case3 c cs hf ih =>
    obtain ⟨⟨gap', l', rest'⟩, hn, heq⟩ := Option.map_eq_some_iff.mp h
    cases heq
    have hc : split all (c :: cs) = consGap c (split all cs) := split_cons (first?_all_eq_none_iff.mp hf)
    rw [hc, ih hn, List.foldr_cons]

private theorem split_of_nextLexeme?_eq_none {cs : List Char} (h : nextLexeme? cs = none) :
    split all cs = cs.foldr consGap [] := by
  fun_induction nextLexeme? cs with
  | case1 => simp [split]
  | case2 => simp at h
  | case3 c cs hf ih =>
    have hc : split all (c :: cs) = consGap c (split all cs) := split_cons (first?_all_eq_none_iff.mp hf)
    rw [hc, ih (Option.map_eq_none_iff.mp h), List.foldr_cons]

/-- A stream gives out the first of the tokens that it has left. -/
theorem remaining_of_next?_eq_some {s s' : TokenStream} {t : Token} (h : s.next? = some (t, s')) :
    s.remaining = t :: s'.remaining := by
  unfold next? at h
  split at h
  · next t' hp =>
    cases h
    simp [remaining, hp]
  · next hp =>
    split at h
    · next l rest hn =>
      cases h
      simp [remaining, hp, split_of_nextLexeme?_eq_some hn, Piece.tokens, Piece.text]
    · next gap l rest hgap hn =>
      -- The lexeme behind the gap waits, so the tokens left begin with both.
      cases h
      have hsplit : split all s.unread = .gap gap :: .lexeme l :: split all rest := by
        rw [split_of_nextLexeme?_eq_some hn]
        exact foldr_consGap hgap (Or.inr ⟨l, _, rfl⟩)
      simp [remaining, hp, hsplit, Piece.tokens, Piece.text]
    · next hn =>
      split at h
      · cases h
      · next hu =>
        cases h
        have hsplit : split all s.unread = [.gap s.unread] := by
          rw [split_of_nextLexeme?_eq_none hn]
          exact foldr_consGap hu (Or.inl rfl)
        simp [remaining, hp, hsplit, Piece.tokens, split]

theorem remaining_of_next?_eq_none {s : TokenStream} (h : s.next? = none) : s.remaining = [] := by
  unfold next? at h
  split at h
  · cases h
  · next hp =>
    split at h
    · cases h
    · cases h
    · split at h
      · next hu => simp [remaining, hp, hu, split, Piece.tokens]
      · cases h

/-- All that a stream gives out until nothing is left. -/
theorem tokens_eq_remaining (s : TokenStream) : s.tokens = s.remaining := by
  fun_induction tokens s with
  | case1 s h => rw [remaining_of_next?_eq_none h]
  | case2 s t s' h ih => rw [remaining_of_next?_eq_some h, ih]

/-- Asked again and again, a stream gives out the tokens that it has left one by one, and then nothing. -/
theorem take_eq (s : TokenStream) (n : Nat) :
    (s.take n).1 = (s.remaining.take n).map some ++ List.replicate (n - s.remaining.length) none ∧
      (s.take n).2.remaining = s.remaining.drop n := by
  induction n generalizing s with
  | zero => simp [take]
  | succ n ih =>
    cases h : s.next? with
    | none =>
      have hr := remaining_of_next?_eq_none h
      obtain ⟨hanswers, hrest⟩ := ih s
      rw [hr] at hanswers hrest ⊢
      simp [take, h, hanswers, hrest, List.replicate_succ]
    | some p =>
      obtain ⟨t, s'⟩ := p
      have hr := remaining_of_next?_eq_some h
      obtain ⟨hanswers, hrest⟩ := ih s'
      rw [hr]
      simp [take, h, hanswers, hrest]

private theorem filterMap_answers (s : TokenStream) (n : Nat) : (s.take n).1.filterMap id = s.remaining.take n := by
  have hanswers := (take_eq s n).1
  rw [hanswers, List.filterMap_append, List.filterMap_map, List.filterMap_replicate_of_none rfl, List.append_nil]
  exact List.filterMap_some

/-- A stream answers with nothing only when it has given out all that it had left. -/
theorem none_mem_answers_iff {s : TokenStream} {n : Nat} :
    none ∈ (s.take n).1 ↔ s.remaining.length < n := by
  have hanswers := (take_eq s n).1
  rw [hanswers, List.mem_append, List.mem_replicate]
  have hgiven : none ∉ (s.remaining.take n).map some := by
    intro hmem
    obtain ⟨t, _, ht⟩ := List.mem_map.mp hmem
    cases ht
  have hlt : s.remaining.length < n ↔ n - s.remaining.length ≠ 0 := by omega
  rw [or_iff_right hgiven, hlt, and_iff_left rfl]

/-- A stream that has nothing left stays so, however often it is asked. -/
theorem take_of_remaining_eq_nil {s : TokenStream} (h : s.remaining = []) (m : Nat) :
    (s.take m).1 = List.replicate m none ∧ (s.take m).2.tokens = [] := by
  obtain ⟨hanswers, hrest⟩ := take_eq s m
  rw [h] at hanswers hrest
  constructor
  · simpa using hanswers
  · rw [tokens_eq_remaining, hrest, List.drop_nil]

/-- A query that is read in part, token by token, and then to its end has the tokens that it has when it is read at
once, wherever the reading on demand stops: also between a gap and the lexeme that waits behind it. A stream that
has answered with nothing does so from then on, and has no tokens left. -/
theorem tokens_given_out_and_left (query : String) (n : Nat) :
    ∃ answers s, (ofQuery query).take n = (answers, s) ∧ answers.length = n ∧
      answers.filterMap id ++ s.tokens = lex query ∧
      (none ∈ answers → ∀ m, (s.take m).1 = List.replicate m none ∧ (s.take m).2.tokens = []) := by
  obtain ⟨hanswers, hrest⟩ := take_eq (ofQuery query) n
  refine ⟨_, _, rfl, ?_, ?_, fun hnone => ?_⟩
  · rw [hanswers, List.length_append, List.length_map, List.length_take, List.length_replicate]
    omega
  · rw [filterMap_answers, tokens_eq_remaining, hrest, List.take_append_drop, remaining_ofQuery]
  · have hlt := none_mem_answers_iff.mp hnone
    apply take_of_remaining_eq_nil
    rw [hrest]
    exact List.drop_of_length_le (Nat.le_of_lt hlt)

/-- The stream stops once with a parameter that waits behind the text before it, and once after the end. -/
theorem stream_stopped_before_parameter :
    (∃ s, (ofQuery "a = ?").take 1 = ([some (.other "a = " ⟨0, 4⟩)], s) ∧ s.pending = some (.implicit ⟨4, 5⟩) ∧
      Token.other "a = " ⟨0, 4⟩ :: s.tokens = lex "a = ?") ∧
    ∃ s, (ofQuery "a = ?").take 3 = ([some (.other "a = " ⟨0, 4⟩), some (.implicit ⟨4, 5⟩), none], s) ∧
      ∀ m, (s.take m).1 = List.replicate m none ∧ (s.take m).2.tokens = [] := by
  have hfirst : (ofQuery "a = ?").take 1 =
      ([some (.other "a = " ⟨0, 4⟩)], ⟨some (.implicit ⟨4, 5⟩), 5, []⟩) := rfl
  have hall : (ofQuery "a = ?").take 3 =
      ([some (.other "a = " ⟨0, 4⟩), some (.implicit ⟨4, 5⟩), none], ⟨none, 5, []⟩) := rfl
  obtain ⟨answers, s, htake, _, hlex, _⟩ := tokens_given_out_and_left "a = ?" 1
  obtain ⟨answers', s', htake', _, _, hdone⟩ := tokens_given_out_and_left "a = ?" 3
  rw [hfirst] at htake
  rw [hall] at htake'
  cases htake
  cases htake'
  exact ⟨⟨_, hfirst, rfl, hlex⟩, _, hall, hdone (by decide)⟩

end Placeholder.TokenStream
