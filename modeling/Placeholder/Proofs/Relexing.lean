import Placeholder.Proofs.Replacement
import Placeholder.Proofs.Rewriting

/-!
What the lexer finds in the text that the passes write: the tokens that were written, but for gaps that have
run together.
-/
namespace Placeholder
open Form Lexeme

namespace Lexeme

def placeholder : Lexeme :=
  ⟨.implicit, ['?'], ['?']⟩

/-- A parameter as it stands after resolution; other lexemes are left as they are. -/
def canonical (l : Lexeme) : Lexeme :=
  if l.kind.isParameter then placeholder else l

end Lexeme

/-! Parameters and lists of placeholders are inert. -/

private theorem isLoud_of_isNameChar {c : Char} (h : isNameChar c) : isLoud c = false := by
  rw [Bool.eq_false_iff]
  intro hl
  simp only [isLoud, Bool.or_eq_true, beq_iff_eq] at hl
  rcases hl with (((rfl | rfl) | rfl) | rfl) | rfl <;> exact absurd h (by decide)

theorem inert_placeholder : Inert placeholder.text := by
  refine ⟨fun c hc => ?_, '?', [], rfl, by decide, fun h => absurd h (by decide)⟩
  rw [List.mem_singleton.mp hc]
  decide

private theorem inert_sigil {sigil : Char} {cs : List Char} (hs : sigil ∈ ['$', '@', ':'])
    (hcs : ∀ c ∈ cs, isNameChar c) : Inert (sigil :: cs) := by
  have hsigil : isLoud sigil = false ∧ isJoining sigil = false ∧ sigil ≠ '(' := by
    simp only [List.mem_cons, List.not_mem_nil, or_false] at hs
    rcases hs with rfl | rfl | rfl <;> decide
  refine ⟨fun c hc => ?_, sigil, cs, rfl, hsigil.2.1, fun h => absurd h hsigil.2.2⟩
  rcases List.mem_cons.mp hc with rfl | hc
  · exact hsigil.1
  · exact isLoud_of_isNameChar (hcs c hc)

/-- The text of every parameter is inert. -/
theorem inert_of_covers {form : Form} {l : Lexeme} {rest : List Char} (h : form.Covers l rest)
    (hp : l.kind.isParameter) : Inert l.text := by
  cases h with
  | lineComment | blockComment | singleQuoted | doubleQuoted | backquoted => cases hp
  | implicit => exact inert_placeholder
  | explicit hs hn => exact inert_sigil hs (isNameChar_of_natural hn)
  | named hs hi => exact inert_sigil (List.mem_cons_of_mem _ hs) (isNameChar_of_identifier hi)
  | percentNamed hi =>
    refine ⟨fun c hc => ?_, '%', _, rfl, by decide, fun h => absurd h (by decide)⟩
    simp only [List.cons_append, List.mem_cons, List.mem_append, List.not_mem_nil, or_false] at hc
    rcases hc with rfl | rfl | hc | rfl | rfl
    · decide
    · decide
    · exact isLoud_of_isNameChar (isNameChar_of_identifier hi c hc)
    · decide
    · decide

private theorem eq_placeholder_of_covers {form : Form} {l : Lexeme} {rest : List Char} (h : form.Covers l rest)
    (hk : l.kind = .implicit) : l = placeholder := by
  cases h with
  | implicit => rfl
  | _ => cases hk

namespace Piece

def mapLexeme (f : Lexeme → Lexeme) : Piece → Piece
  | .gap text => .gap text
  | .lexeme l => .lexeme (f l)

def parameter? : Piece → Option Lexeme
  | .gap _ => none
  | .lexeme l => if l.kind.isParameter then some l else none

def placeholders (count : Nat) : List Piece :=
  .gap ['('] :: (List.replicate count (.lexeme placeholder)).intersperse (.gap [',', ' ']) ++ [.gap [')']]

private theorem silent_of_forall {text : List Char} (h : ∀ c ∈ text, isOpening c = false) (rest : List Char) :
    Silent text rest := by
  intro after ha hne form hb
  obtain ⟨c, cs, rfl⟩ := List.exists_cons_of_ne_nil hne
  have hc := isOpening_of_begins hb
  rw [h c (ha.subset List.mem_cons_self)] at hc
  cases hc

theorem fitAll_of_forall {pieces : List Piece} (h : ∀ p ∈ pieces, ∀ rest, p.Fits rest) (rest : List Char) :
    FitAll pieces rest := by
  induction pieces with
  | nil => trivial
  | cons p pieces ih =>
    exact ⟨h p List.mem_cons_self _, ih fun q hq => h q (List.mem_cons_of_mem p hq)⟩

/-- The characters between placeholders open nothing and close nothing. -/
private theorem quiet_of_mem {c : Char} (hc : c ∈ ['(', ',', ' ', ')']) :
    isOpening c = false ∧ isLoud c = false := by
  simp only [List.mem_cons, List.not_mem_nil, or_false] at hc
  rcases hc with rfl | rfl | rfl | rfl <;> decide

private theorem mem_placeholders {count : Nat} {p : Piece} (h : p ∈ placeholders count) :
    p = .lexeme placeholder ∨ ∃ text, p = .gap text ∧ ∀ c ∈ text, c ∈ ['(', ',', ' ', ')'] := by
  have hmid : p ∈ (List.replicate count (lexeme placeholder)).intersperse (.gap [',', ' ']) →
      p = .lexeme placeholder ∨ p = .gap [',', ' '] := by
    intro hp
    cases count with
    | zero => cases hp
    | succ count =>
      rw [List.replicate_succ, intersperse_cons_eq] at hp
      rcases List.mem_cons.mp hp with rfl | hp
      · exact Or.inl rfl
      · obtain ⟨q, hq, hp⟩ := List.mem_flatMap.mp hp
        rw [List.eq_of_mem_replicate hq] at hp
        simpa [or_comm] using hp
  rw [placeholders, List.cons_append, List.mem_cons, List.mem_append, List.mem_singleton] at h
  rcases h with rfl | h | rfl
  · exact Or.inr ⟨_, rfl, by simp⟩
  · rcases hmid h with rfl | rfl
    · exact Or.inl rfl
    · exact Or.inr ⟨_, rfl, by simp⟩
  · exact Or.inr ⟨_, rfl, by simp⟩

private theorem fitAll_placeholders (count : Nat) (rest : List Char) : FitAll (placeholders count) rest := by
  refine fitAll_of_forall (fun p hp rest => ?_) rest
  rcases mem_placeholders hp with rfl | ⟨text, rfl, ht⟩
  · exact ⟨.implicit, .implicit⟩
  · exact silent_of_forall (fun c hc => (quiet_of_mem (ht c hc)).1) rest

theorem inert_placeholders (count : Nat) : Inert ((placeholders count).flatMap text) := by
  constructor
  · intro c hc
    obtain ⟨p, hp, hc⟩ := List.mem_flatMap.mp hc
    rcases mem_placeholders hp with rfl | ⟨text, rfl, ht⟩
    · exact inert_placeholder.quiet c hc
    · exact (quiet_of_mem (ht c hc)).2
  · cases count with
    | zero => exact ⟨'(', [')'], rfl, by decide, fun _ => ⟨')', [], rfl, by decide⟩⟩
    | succ count =>
      rw [placeholders, List.replicate_succ, intersperse_cons_eq]
      exact ⟨'(', _, rfl, by decide, fun _ => ⟨'?', _, rfl, by decide⟩⟩

def parameters (pieces : List Piece) : List Lexeme :=
  pieces.filterMap parameter?

private theorem parameters_consGap (c : Char) (pieces : List Piece) :
    parameters (consGap c pieces) = parameters pieces := by
  fun_cases consGap c pieces <;> rfl

theorem parameters_foldr_join (pieces : List Piece) :
    parameters (pieces.foldr join []) = parameters pieces := by
  induction pieces with
  | nil => rfl
  | cons p pieces ih =>
    rw [List.foldr_cons]
    cases p with
    | lexeme l =>
      rw [join, parameters, List.filterMap_cons, parameters, List.filterMap_cons]
      simp only [parameters] at ih
      rw [ih]
    | gap text =>
      have hgap : ∀ qs, parameters (text.foldr consGap qs) = parameters qs := by
        intro qs
        induction text with
        | nil => rfl
        | cons c text iht => rw [List.foldr_cons, parameters_consGap, iht]
      rw [join, hgap, ih]
      rfl

private theorem parameters_placeholders (count : Nat) :
    parameters (placeholders count) = List.replicate count placeholder := by
  have hmid : parameters ((List.replicate count (lexeme placeholder)).intersperse (.gap [',', ' '])) =
      List.replicate count placeholder := by
    cases count with
    | zero => rfl
    | succ count =>
      have hrest : parameters ((List.replicate count (lexeme placeholder)).flatMap
          fun p => [.gap [',', ' '], p]) = List.replicate count placeholder := by
        induction count with
        | zero => rfl
        | succ count ih =>
          rw [List.replicate_succ, List.flatMap_cons, parameters, List.filterMap_append, List.replicate_succ]
          exact congrArg (placeholder :: ·) ih
      rw [List.replicate_succ, intersperse_cons_eq, List.replicate_succ, ← hrest]
      rfl
  rw [placeholders, parameters, List.filterMap_append, ← hmid, List.filterMap_cons]
  exact List.append_nil _

private theorem parameters_append (pieces pieces' : List Piece) :
    parameters (pieces ++ pieces') = parameters pieces ++ parameters pieces' :=
  List.filterMap_append

private theorem map_kind_filter_tokens (start : Nat) (pieces : List Piece) :
    ((tokens start pieces).filter Token.isParameter).map Token.kind =
      (parameters pieces).map Lexeme.kind := by
  induction pieces generalizing start with
  | nil => rfl
  | cons p pieces ih =>
    rw [tokens, parameters, List.filterMap_cons]
    cases p with
    | gap text =>
      rw [List.filter_cons_of_neg (by exact Bool.false_ne_true), ih]
      rfl
    | lexeme l =>
      by_cases hl : l.kind.isParameter
      · rw [List.filter_cons_of_pos (by exact hl), List.map_cons, ih, parameter?, if_pos hl]
        rfl
      · rw [List.filter_cons_of_neg (by exact hl), ih, parameter?, if_neg hl]
        rfl

theorem canonical_tokens {pieces : List Piece} {count : Nat}
    (h : parameters pieces = List.replicate count placeholder) (start : Nat) :
    Canonical (tokens start pieces) ∧ (tokens start pieces).countP Token.isImplicit = count := by
  have hkinds := map_kind_filter_tokens start pieces
  rw [h, List.map_replicate] at hkinds
  have himplicit : ∀ t ∈ tokens start pieces, t.isParameter → t.kind = .implicit := by
    intro t ht hp
    have hk : t.kind ∈ ((tokens start pieces).filter Token.isParameter).map Token.kind :=
      List.mem_map.mpr ⟨t, List.mem_filter.mpr ⟨ht, hp⟩, rfl⟩
    rw [hkinds] at hk
    exact List.eq_of_mem_replicate hk
  constructor
  · intro t ht
    by_cases hp : t.isParameter
    · exact Or.inr (himplicit t ht hp)
    · rw [Token.isParameter_eq_isSome_reference?, Option.not_isSome_iff_eq_none] at hp
      exact Or.inl (Token.kind_eq_other_iff.mpr hp)
  · have hlength := congrArg List.length hkinds
    rw [List.length_map, List.length_replicate, ← List.countP_eq_length_filter] at hlength
    rw [← hlength]
    refine List.countP_congr fun t ht => ⟨fun hi => ?_, fun hp => ?_⟩
    · rw [Token.isParameter_eq_isSome_reference?, Token.isImplicit_iff.mp hi]
      rfl
    · rw [Token.isImplicit, himplicit t ht hp]
      rfl

theorem eq_implicit_of_mem_tokens {pieces : List Piece} {rest : List Char} (h : FitAll pieces rest)
    {start : Nat} {t : Token} (ht : t ∈ tokens start pieces) (hk : t.kind = .implicit) :
    t = .implicit t.span := by
  induction pieces generalizing start with
  | nil => cases ht
  | cons p pieces ih =>
    rcases List.mem_cons.mp ht with rfl | ht
    · cases p with
      | gap text => cases hk
      | lexeme l =>
        obtain ⟨form, hl⟩ := h.1
        rw [eq_placeholder_of_covers hl hk]
        rfl
    · exact ih h.2 ht

/-- The pieces that the parameters are resolved to. -/
theorem replaced_canonical {pieces : List Piece} {rest : List Char} (h : FitAll pieces rest) :
    Replaced pieces (pieces.map (mapLexeme canonical)) := by
  induction pieces with
  | nil => exact .nil
  | cons p pieces ih =>
    rw [List.map_cons]
    cases p with
    | gap text => exact .keep _ (ih h.2)
    | lexeme l =>
      obtain ⟨form, hl⟩ := h.1
      rw [mapLexeme, canonical]
      by_cases hp : l.kind.isParameter
      · rw [if_pos hp]
        have hput : ∀ rest', FitAll [.lexeme placeholder] rest' :=
          fun rest' => ⟨⟨.implicit, .implicit⟩, trivial⟩
        have hinert : Inert ([Piece.lexeme placeholder].flatMap text) := inert_placeholder
        exact .replace (inert_of_covers hl hp) hinert (fun rest' _ => hput rest') (ih h.2)
      · rw [if_neg hp]
        exact .keep _ (ih h.2)

private theorem foldr_join_map (f : Lexeme → Lexeme) (pieces : List Piece) :
    (pieces.map (mapLexeme f)).foldr join [] = (pieces.foldr join []).map (mapLexeme f) := by
  have hcons : ∀ c (qs : List Piece), consGap c (qs.map (mapLexeme f)) = (consGap c qs).map (mapLexeme f) := by
    intro c qs
    fun_cases consGap c qs with
    | case1 text qs => rfl
    | case2 qs hqs =>
      cases qs with
      | nil => rfl
      | cons q qs =>
        cases q with
        | gap text => exact absurd rfl (hqs text qs)
        | lexeme l => rfl
  have hjoin : ∀ (p : Piece) qs, (p.mapLexeme f).join (qs.map (mapLexeme f)) = (p.join qs).map (mapLexeme f) := by
    intro p qs
    cases p with
    | lexeme l => rfl
    | gap text =>
      change text.foldr consGap _ = (text.foldr consGap qs).map _
      induction text with
      | nil => rfl
      | cons c text ih => rw [List.foldr_cons, List.foldr_cons, ih, hcons]
  induction pieces with
  | nil => rfl
  | cons p pieces ih => rw [List.map_cons, List.foldr_cons, List.foldr_cons, ih, hjoin]

/-- Resolution keeps the pieces of a text, and they are found again in the text that it writes. -/
theorem split_canonical (cs : List Char) :
    split all (((split all cs).map (mapLexeme canonical)).flatMap text) =
      (split all cs).map (mapLexeme canonical) := by
  rw [split_replaced (replaced_canonical (fitAll_of_splits (splits_split cs))), foldr_join_map,
    foldr_join_split]

theorem respan_tokens_canonical (span : Span) (start start' : Nat) (pieces : List Piece) :
    (tokens start (pieces.map (mapLexeme canonical))).map (Token.respan fun _ => span) =
      ((tokens start' pieces).map Token.canonical).map (Token.respan fun _ => span) := by
  induction pieces generalizing start start' with
  | nil => rfl
  | cons p pieces ih =>
    rw [List.map_cons, tokens, tokens, List.map_cons, List.map_cons, List.map_cons, ih]
    congr 1
    cases p with
    | gap text => rfl
    | lexeme l =>
      have ht : (token start' (.lexeme l)).isParameter = l.kind.isParameter := rfl
      rw [mapLexeme, canonical, Token.canonical, ht]
      by_cases hp : l.kind.isParameter
      · rw [if_pos hp, if_pos hp]
        rfl
      · rw [if_neg hp, if_neg hp]
        rfl

private theorem flatMap_text_placeholders (count : Nat) (span : Span) :
    (placeholders count).flatMap text = (Token.render (Token.placeholders count span)).toList := by
  have hmap : (placeholders count).map text = (Token.placeholders count span).map fun t => t.text.toList := by
    simp [placeholders, Token.placeholders, map_intersperse, text, placeholder, Token.other, Token.implicit]
  rw [Token.toList_render, List.flatMap_def, List.flatMap_def, hmap]

private theorem reference?_token_eq_next {p : Piece} {rest : List Char} (h : p.Fits rest) {start : Nat}
    (ht : (p.token start).reference? = some .next) : p = .lexeme placeholder := by
  cases p with
  | gap text => cases ht
  | lexeme l =>
    obtain ⟨form, hl⟩ := h
    have hk : l.kind = .implicit := by simpa [Token.isImplicit, token] using Token.isImplicit_iff.mpr ht
    rw [eq_placeholder_of_covers hl hk]

private theorem parameter?_eq_none {p : Piece} {start : Nat} (ht : (p.token start).reference? = none) :
    p.parameter? = none := by
  cases p with
  | gap text => rfl
  | lexeme l =>
    have hk : l.kind = .other := Token.kind_eq_other_iff.mpr ht
    rw [parameter?, hk]
    rfl

/-- The pieces that stand for a placeholder with the binding. -/
def ofBinding {α : Type} : Binding α → List Piece
  | .scalar _ => [.lexeme placeholder]
  | .sequence values => placeholders values.length

/-- The pieces make up the text of the tokens, and their parameters are a placeholder for each value. -/
structure Writes {α : Type} (pieces : List Piece) (bound : BoundTokens α) : Prop where
  text : pieces.flatMap text = (Token.render bound.tokens).toList
  parameters : parameters pieces = List.replicate bound.bindings.length placeholder

section Writes

variable {α : Type} {put pieces : List Piece} {ts : List Token} {values : List α} {bound : BoundTokens α}

theorem Writes.prepend (hput : Writes put ⟨ts, values⟩) (h : Writes pieces bound) :
    Writes (put ++ pieces) (bound.prepend ts values) := by
  constructor
  · change _ = (Token.render (ts ++ bound.tokens)).toList
    rw [Token.render_append, String.toList_append, List.flatMap_append, h.text, hput.text]
  · change _ = List.replicate (values ++ bound.bindings).length placeholder
    rw [parameters_append, h.parameters, hput.parameters, List.replicate_append_replicate,
      List.length_append]

theorem writes_token {p : Piece} {start : Nat} (ht : (p.token start).reference? = none) :
    Writes [p] (⟨[p.token start], []⟩ : BoundTokens α) := by
  constructor
  · rw [Token.toList_render, List.flatMap_singleton, List.flatMap_singleton, toList_text_token]
  · rw [Piece.parameters, List.filterMap_cons, parameter?_eq_none ht]
    rfl

theorem writes_ofBinding (start : Nat) (binding : Binding α) :
    Writes (ofBinding binding)
      ⟨binding.tokens (token start (.lexeme placeholder)), binding.values⟩ := by
  cases binding with
  | scalar value =>
    constructor
    · rw [ofBinding, Binding.tokens, Token.toList_render, List.flatMap_singleton, List.flatMap_singleton,
        toList_text_token]
    · rfl
  | sequence values =>
    constructor
    · exact flatMap_text_placeholders values.length _
    · exact parameters_placeholders values.length

theorem replaced_ofBinding (binding : Binding α) {new : List Piece} (h : Replaced pieces new) :
    Replaced (.lexeme placeholder :: pieces) (ofBinding binding ++ new) := by
  cases binding with
  | scalar value => exact .keep _ h
  | sequence values =>
    exact .replace inert_placeholder (inert_placeholders values.length)
      (fun rest _ => fitAll_placeholders values.length rest) h

end Writes

/-- What expansion makes of the tokens of pieces is written by other pieces, which replace them. -/
theorem replaced_of_expandFrom {α : Type} {pieces : List Piece} {rest : List Char} (h : FitAll pieces rest)
    {start : Nat} {left : List (Binding α)} {r : BoundTokens α × Nat}
    (hr : (Token.expandFrom left (tokens start pieces)).result = .ok r) :
    ∃ new, Replaced pieces new ∧ Writes new r.1 := by
  induction pieces generalizing start left r with
  | nil =>
    rw [tokens, Token.result_expandFrom_nil] at hr
    cases hr
    exact ⟨[], .nil, ⟨rfl, rfl⟩⟩
  | cons p pieces ih =>
    rw [tokens] at hr
    obtain ⟨ht, r', hr', rfl⟩ | ⟨ht, binding, left, rfl, r', hr', rfl⟩ := Token.expandFrom_cons_eq_ok hr
    · obtain ⟨new, hnew, hwrites⟩ := ih h.2 hr'
      exact ⟨p :: new, .keep p hnew, (writes_token ht).prepend hwrites⟩
    · obtain rfl : p = .lexeme placeholder := reference?_token_eq_next h.1 ht
      obtain ⟨new, hnew, hwrites⟩ := ih h.2 hr'
      exact ⟨ofBinding binding ++ new, replaced_ofBinding binding hnew,
        (writes_ofBinding start binding).prepend hwrites⟩

end Piece
end Placeholder
