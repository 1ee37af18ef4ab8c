import Placeholder.Token.Piece
import Placeholder.Proofs.Openings

/-!
How a text splits into pieces. A splitting is told apart by what each of its pieces covers, and there is
one for every text: the lexer finds it.
-/
namespace Placeholder

namespace Piece
open Form

/-- No form is found at any place of the text when `rest` follows it. -/
def Silent (text rest : List Char) : Prop :=
  ∀ after, after <:+ text → after ≠ [] → ∀ form : Form, ¬ form.Begins (after ++ rest)

/-- The pieces of a text: lexemes that some form covers, and between them gaps in which none is found and
which go on as far as they can. -/
inductive Splits : List Char → List Piece → Prop
  | nil : Splits [] []
  | lexeme {form : Form} {l : Lexeme} {rest : List Char} {pieces : List Piece} :
    form.Covers l rest → Splits rest pieces → Splits (l.text ++ rest) (.lexeme l :: pieces)
  | gap {text rest : List Char} {pieces : List Piece} :
    text ≠ [] → Silent text rest → (rest = [] ∨ ∃ form : Form, form.Begins rest) → Splits rest pieces →
    Splits (text ++ rest) (.gap text :: pieces)

def Fits : Piece → List Char → Prop
  | .gap text, rest => Silent text rest
  | .lexeme l, rest => ∃ form : Form, form.Covers l rest

def FitAll : List Piece → List Char → Prop
  | [], _ => True
  | p :: pieces, rest => p.Fits (pieces.flatMap text ++ rest) ∧ FitAll pieces rest

/-- The tokens of pieces that stand one after the other from byte `start` on. A gap is plain text; a lexeme says of
what kind it is and what is inside. -/
inductive Placed : Nat → List Piece → List Token → Prop
  | nil {start : Nat} : Placed start [] []
  | gap {start : Nat} {text : List Char} {pieces : List Piece} {ts : List Token} :
    Placed (start + (String.ofList text).utf8ByteSize) pieces ts →
    Placed start (.gap text :: pieces)
      (⟨.other, String.ofList text, "", ⟨start, start + (String.ofList text).utf8ByteSize⟩⟩ :: ts)
  | lexeme {start : Nat} {l : Lexeme} {pieces : List Piece} {ts : List Token} :
    Placed (start + (String.ofList l.text).utf8ByteSize) pieces ts →
    Placed start (.lexeme l :: pieces) (⟨l.kind, String.ofList l.text, String.ofList l.inside,
      ⟨start, start + (String.ofList l.text).utf8ByteSize⟩⟩ :: ts)

/-- Puts a piece before others. A gap becomes one with a gap at their front. -/
def join : Piece → List Piece → List Piece
  | .gap text, pieces => text.foldr consGap pieces
  | .lexeme l, pieces => .lexeme l :: pieces

theorem silent_cons_iff {c : Char} {text rest : List Char} :
    Silent (c :: text) rest ↔ (∀ form : Form, ¬ form.Begins (c :: (text ++ rest))) ∧ Silent text rest := by
  constructor
  · intro h
    refine ⟨h (c :: text) List.suffix_rfl (List.cons_ne_nil c text), fun after ha => ?_⟩
    exact h after (ha.trans (List.suffix_cons c text))
  · rintro ⟨hc, h⟩ after ha
    rcases List.suffix_cons_iff.mp ha with rfl | ha
    · exact fun _ => hc
    · exact h after ha

@[simp] theorem silent_nil (rest : List Char) : Silent [] rest := by
  intro after ha hne
  exact absurd (List.suffix_nil.mp ha) hne

theorem split_lexeme {form : Form} {l : Lexeme} {rest : List Char} (h : form.Covers l rest) :
    split all (l.text ++ rest) = .lexeme l :: split all rest := by
  have hf : first? all (l.text ++ rest) = some (l, rest) := first?_all_eq_some_iff.mpr ⟨rfl, form, h⟩
  obtain ⟨c, cs, hcs⟩ := List.exists_cons_of_ne_nil (text_ne_nil_of_first? hf)
  rw [hcs, List.cons_append] at hf ⊢
  rw [split]
  split
  · next heq =>
    rw [hf] at heq
    cases heq
    rfl
  · next heq =>
    rw [hf] at heq
    cases heq

theorem split_cons {c : Char} {cs : List Char} (h : ∀ form : Form, ¬ form.Begins (c :: cs)) :
    split all (c :: cs) = consGap c (split all cs) := by
  have hf : first? all (c :: cs) = none := first?_all_eq_none_iff.mpr h
  rw [split]
  split
  · next heq =>
    rw [hf] at heq
    cases heq
  · rfl

theorem split_gap {text rest : List Char} (h : Silent text rest) :
    split all (text ++ rest) = text.foldr consGap (split all rest) := by
  induction text with
  | nil => rfl
  | cons c text ih =>
    obtain ⟨hc, ht⟩ := silent_cons_iff.mp h
    rw [List.cons_append, split_cons hc, ih ht, List.foldr_cons]

/-- A piece that may stand before a text is put before the pieces of the text. -/
theorem split_append {p : Piece} {rest : List Char} (h : p.Fits rest) :
    split all (p.text ++ rest) = p.join (split all rest) := by
  cases p with
  | gap text => exact split_gap h
  | lexeme l =>
    obtain ⟨form, hl⟩ := h
    exact split_lexeme hl

theorem split_flatMap {pieces : List Piece} {rest : List Char} (h : FitAll pieces rest) :
    split all (pieces.flatMap text ++ rest) = pieces.foldr join (split all rest) := by
  induction pieces with
  | nil => rfl
  | cons p pieces ih =>
    rw [List.flatMap_cons, List.append_assoc, split_append h.1, ih h.2, List.foldr_cons]

/-- A gap is kept apart from pieces that do not begin with one. -/
theorem foldr_consGap {text : List Char} {pieces : List Piece} (ht : text ≠ [])
    (hp : pieces = [] ∨ ∃ l pieces', pieces = .lexeme l :: pieces') :
    text.foldr consGap pieces = .gap text :: pieces := by
  induction text with
  | nil => exact absurd rfl ht
  | cons c text ih =>
    rw [List.foldr_cons]
    by_cases hn : text = []
    · subst text
      rcases hp with rfl | ⟨l, pieces', rfl⟩ <;> rfl
    · rw [ih hn]
      rfl

private theorem split_begins {form : Form} {cs : List Char} (h : form.Begins cs) :
    ∃ l pieces, split all cs = .lexeme l :: pieces := by
  obtain ⟨l, rest, rfl, hl⟩ := h
  exact ⟨l, _, split_lexeme hl⟩

private theorem split_eq_of_splits {cs : List Char} {pieces : List Piece} (h : Splits cs pieces) :
    split all cs = pieces := by
  induction h with
  | nil => rw [split]
  | lexeme hl _ ih => rw [split_lexeme hl, ih]
  | gap ht hs hr _ ih =>
    rw [split_gap hs, ih]
    apply foldr_consGap ht
    rcases hr with rfl | ⟨form, hb⟩
    · rw [← ih, split]
      exact Or.inl rfl
    · rw [← ih]
      exact Or.inr (split_begins hb)

private theorem splits_consGap {c : Char} {cs : List Char} {pieces : List Piece}
    (hc : ∀ form : Form, ¬ form.Begins (c :: cs)) (h : Splits cs pieces) :
    Splits (c :: cs) (consGap c pieces) := by
  have hsilent : Silent [c] cs := silent_cons_iff.mpr ⟨hc, silent_nil cs⟩
  cases h with
  | nil => exact .gap (List.cons_ne_nil c []) hsilent (Or.inl rfl) .nil
  | @lexeme form l rest pieces hl hs =>
    have hb : ∃ form : Form, form.Begins (l.text ++ rest) := ⟨form, l, rest, rfl, hl⟩
    exact .gap (List.cons_ne_nil c []) hsilent (Or.inr hb) (.lexeme hl hs)
  | @gap text rest pieces ht hs hr hp =>
    exact .gap (List.cons_ne_nil c text) (silent_cons_iff.mpr ⟨hc, hs⟩) hr hp

/-- What the scan gives is a splitting of the text, in whichever order it tries the forms. -/
theorem splits_split_of_forall_mem {forms : List Form} (hforms : ∀ form, form ∈ forms) (cs : List Char) :
    Splits cs (split forms cs) := by
  fun_induction split forms cs with
  | case1 => exact .nil
  | case2 c cs l rest h ih =>
    obtain ⟨heq, form, hl⟩ := (first?_eq_some_iff hforms).mp h
    rw [heq]
    exact .lexeme hl ih
  | case3 c cs h ih => exact splits_consGap ((first?_eq_none_iff hforms).mp h) ih

theorem splits_split (cs : List Char) : Splits cs (split all cs) :=
  splits_split_of_forall_mem mem_all cs

theorem splits_iff {cs : List Char} {pieces : List Piece} : Splits cs pieces ↔ pieces = split all cs := by
  constructor
  · intro h
    exact (split_eq_of_splits h).symm
  · rintro rfl
    exact splits_split cs

theorem flatMap_text_of_splits {cs : List Char} {pieces : List Piece} (h : Splits cs pieces) :
    pieces.flatMap text = cs := by
  rw [splits_iff.mp h, flatMap_text_split]

theorem fitAll_of_splits {cs : List Char} {pieces : List Piece} (h : Splits cs pieces) :
    FitAll pieces [] := by
  induction h with
  | nil => trivial
  | lexeme hl hs ih =>
    refine ⟨?_, ih⟩
    rw [flatMap_text_of_splits hs, List.append_nil]
    exact ⟨_, hl⟩
  | gap _ hs _ hp ih =>
    refine ⟨?_, ih⟩
    rw [flatMap_text_of_splits hp, List.append_nil]
    exact hs

/-- The pieces of a text have been joined already. -/
theorem foldr_join_split (cs : List Char) : (split all cs).foldr join [] = split all cs := by
  have h := split_flatMap (fitAll_of_splits (splits_split cs))
  rw [List.append_nil, flatMap_text_split, split] at h
  exact h.symm

theorem text_ne_nil_of_splits {cs : List Char} {pieces : List Piece} (h : Splits cs pieces) :
    ∀ p ∈ pieces, p.text ≠ [] := by
  induction h with
  | nil =>
    intro p hp
    cases hp
  | lexeme hl _ ih =>
    intro p hp
    rcases List.mem_cons.mp hp with rfl | hp
    · exact text_ne_nil_of_read (read_of_covers hl)
    · exact ih p hp
  | gap ht _ _ _ ih =>
    intro p hp
    rcases List.mem_cons.mp hp with rfl | hp
    · exact ht
    · exact ih p hp

theorem placed_tokens (start : Nat) (pieces : List Piece) : Placed start pieces (tokens start pieces) := by
  induction pieces generalizing start with
  | nil => exact .nil
  | cons p pieces ih =>
    have hrest := ih (start + Text.width p.text)
    rw [Text.width_eq_utf8ByteSize] at hrest
    cases p with
    | gap text =>
      rw [tokens, token, Text.width_eq_utf8ByteSize]
      exact .gap hrest
    | lexeme l =>
      rw [tokens, token, Text.width_eq_utf8ByteSize]
      exact .lexeme hrest

end Piece

/-- The tokens of a query are the pieces of its only splitting, one after the other. No piece is empty, and together
they are the query. -/
theorem lex_eq_tokens_of_only_splitting (query : String) :
    ∃ pieces, lex query = Piece.tokens 0 pieces ∧ Piece.Placed 0 pieces (lex query) ∧
      (∀ p ∈ pieces, p.text ≠ []) ∧ pieces.flatMap Piece.text = query.toList ∧
      ∀ pieces', Piece.Splits query.toList pieces' ↔ pieces' = pieces := by
  have h := Piece.splits_split query.toList
  refine ⟨Piece.split Form.all query.toList, rfl, Piece.placed_tokens 0 _, Piece.text_ne_nil_of_splits h,
    Piece.flatMap_text_of_splits h, fun pieces' => Piece.splits_iff⟩

end Placeholder
