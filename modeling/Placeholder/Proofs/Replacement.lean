import Placeholder.Proofs.Splitting

/-!
What a change of the text inside its parameters can do to the pieces around them: nothing, as long as the
new text is inert as the text of parameters is. A form that is found before the change is found after it.
-/
namespace Placeholder
open Form Lexeme

/-- The characters that end or escape something in a comment or a quoted text. -/
def isLoud (c : Char) : Bool :=
  c == '*' || c == '\\' || c == '\x27' || c == '\x22' || c == '\x60'

/-- The characters that a form may need in second place or later. -/
def isJoining (c : Char) : Bool :=
  isNameChar c || c == '-' || c == '/' || c == ')' || c == '\n'

private theorem isJoining_of_isNameChar {c : Char} (h : isNameChar c) : isJoining c := by
  simp [isJoining, h]

/-- A text that neither closes nor completes anything that begins before it. -/
structure Inert (cs : List Char) : Prop where
  quiet : ∀ c ∈ cs, isLoud c = false
  head : ∃ c ds, cs = c :: ds ∧ isJoining c = false ∧
    (c = '(' → ∃ d es, ds = d :: es ∧ isNameStart d = false)

/-- The texts are the same but for inert stretches that stand for each other. -/
inductive Alike : List Char → List Char → Prop
  | nil : Alike [] []
  | cons (c : Char) {cs ds : List Char} : Alike cs ds → Alike (c :: cs) (c :: ds)
  | swap {p r cs ds : List Char} : Inert p → Inert r → Alike cs ds → Alike (p ++ cs) (r ++ ds)

namespace Alike

theorem refl (cs : List Char) : Alike cs cs := by
  induction cs with
  | nil => exact .nil
  | cons c cs ih => exact .cons c ih

theorem symm {cs ds : List Char} (h : Alike cs ds) : Alike ds cs := by
  induction h with
  | nil => exact .nil
  | cons c _ ih => exact .cons c ih
  | swap hp hr _ ih => exact .swap hr hp ih

theorem append_left (text : List Char) {cs ds : List Char} (h : Alike cs ds) :
    Alike (text ++ cs) (text ++ ds) := by
  induction text with
  | nil => exact h
  | cons c text ih => exact .cons c ih

theorem eq_nil {ds : List Char} (h : Alike [] ds) : ds = [] := by
  generalize hcs : [] = cs at h
  cases h with
  | nil => rfl
  | cons c _ => cases hcs
  | swap hp _ _ =>
    obtain ⟨c, _, rfl, _⟩ := hp.head
    cases hcs

/-- A character with which no inert text begins stands in both texts. -/
theorem of_cons {c : Char} {cs ds : List Char} (h : Alike (c :: cs) ds)
    (hc : isJoining c ∨ isLoud c) : ∃ es, ds = c :: es ∧ Alike cs es := by
  generalize hcs : c :: cs = cs' at h
  cases h with
  | nil => cases hcs
  | cons d h =>
    cases hcs
    exact ⟨_, rfl, h⟩
  | swap hp _ _ =>
    obtain ⟨d, ds, rfl, hj, _⟩ := hp.head
    cases hcs
    rcases hc with hc | hc
    · rw [hj] at hc
      cases hc
    · rw [hp.quiet c List.mem_cons_self] at hc
      cases hc

/-- An opening parenthesis before a name stands in both texts, though inert texts may begin with one. -/
theorem of_paren {c : Char} {cs ds : List Char} (h : Alike ('(' :: c :: cs) ds) (hc : isNameStart c) :
    ∃ es, ds = '(' :: es ∧ Alike (c :: cs) es := by
  generalize hcs : '(' :: c :: cs = cs' at h
  cases h with
  | nil => cases hcs
  | cons d h =>
    cases hcs
    exact ⟨_, rfl, h⟩
  | swap hp _ _ =>
    obtain ⟨d, ds, rfl, _, hparen⟩ := hp.head
    obtain ⟨rfl, hds⟩ := List.cons.inj hcs
    obtain ⟨e, es, rfl, he⟩ := hparen rfl
    obtain ⟨rfl, _⟩ := List.cons.inj hds
    rw [he] at hc
    cases hc

theorem of_name {name cs ds : List Char} (h : Alike (name ++ cs) ds) (hn : ∀ c ∈ name, isNameChar c) :
    ∃ es, ds = name ++ es ∧ Alike cs es := by
  induction name generalizing ds with
  | nil => exact ⟨ds, rfl, h⟩
  | cons c name ih =>
    have hc : isJoining c := isJoining_of_isNameChar (hn c List.mem_cons_self)
    obtain ⟨es, rfl, he⟩ := h.of_cons (Or.inl hc)
    obtain ⟨fs, rfl, hf⟩ := ih he (fun d hd => hn d (List.mem_cons_of_mem c hd))
    exact ⟨fs, rfl, hf⟩

/-- What stops a class of name characters stops it in both texts. -/
theorem stops {p : Char → Bool} (hp : ∀ c, p c → isNameChar c) {cs ds : List Char} (h : Alike cs ds)
    (hs : Stops p cs) : Stops p ds := by
  cases h with
  | nil => exact hs
  | cons c _ => exact hs
  | swap _ hr _ =>
    intro c hc
    obtain ⟨d, es, rfl, hj, _⟩ := hr.head
    cases hc
    rw [Bool.eq_false_iff]
    intro hpc
    rw [isJoining_of_isNameChar (hp c hpc)] at hj
    cases hj

end Alike

/-! Scans for the end of a comment or a quoted text run through inert stretches. -/

private theorem isSome_throughStarSlash?_append {p : List Char} (hp : ∀ c ∈ p, isLoud c = false)
    (cs : List Char) : (throughStarSlash? (p ++ cs)).isSome = (throughStarSlash? cs).isSome := by
  induction p with
  | nil => rfl
  | cons c p ih =>
    have hc : c ≠ '*' := by
      intro heq
      subst heq
      exact absurd (hp '*' List.mem_cons_self) (by decide)
    rw [List.cons_append, throughStarSlash?_other hc, Option.isSome_map]
    exact ih fun d hd => hp d (List.mem_cons_of_mem c hd)

private theorem isSome_throughStarSlash?_star {p : List Char} (hp : Inert p) (cs : List Char) :
    (throughStarSlash? ('*' :: (p ++ cs))).isSome = (throughStarSlash? cs).isSome := by
  obtain ⟨c, p, rfl, hj, _⟩ := hp.head
  have hc : c ≠ '/' := by
    intro heq
    subst heq
    exact absurd hj (by decide)
  rw [List.cons_append, throughStarSlash?_star hc, Option.isSome_map]
  exact isSome_throughStarSlash?_append (fun d hd => hp.quiet d (List.mem_cons_of_mem c hd)) cs

/-- A block comment is closed in both texts or in none, also when a star stands before them. -/
theorem Alike.isSome_throughStarSlash? {cs ds : List Char} (h : Alike cs ds) :
    (throughStarSlash? cs).isSome = (throughStarSlash? ds).isSome ∧
      (throughStarSlash? ('*' :: cs)).isSome = (throughStarSlash? ('*' :: ds)).isSome := by
  -- A star takes the next character with it, so what holds behind a star is part of the invariant.
  induction h with
  | nil => exact ⟨rfl, rfl⟩
  | @cons c cs ds _ ih =>
    constructor
    · by_cases hc : c = '*'
      · subst c
        exact ih.2
      · rw [throughStarSlash?_other hc, throughStarSlash?_other hc, Option.isSome_map, Option.isSome_map]
        exact ih.1
    · by_cases hc : c = '/'
      · subst c
        rfl
      · rw [throughStarSlash?_star hc, throughStarSlash?_star hc, Option.isSome_map, Option.isSome_map]
        exact ih.1
  | @swap p r cs ds hp hr _ ih =>
    constructor
    · rw [isSome_throughStarSlash?_append hp.quiet, isSome_throughStarSlash?_append hr.quiet]
      exact ih.1
    · rw [isSome_throughStarSlash?_star hp, isSome_throughStarSlash?_star hr]
      exact ih.1

section Quoted

variable {quote : Char} (hq : quote ∈ ['\x27', '\x22', '\x60'])
include hq

private theorem ne_backslash : quote ≠ '\\' := by
  intro heq
  subst heq
  exact absurd hq (by decide)

private theorem isLoud_quote : isLoud quote := by
  simp only [List.mem_cons, List.not_mem_nil, or_false] at hq
  rcases hq with rfl | rfl | rfl <;> decide

private theorem isSome_throughQuote?_append {p : List Char} (hp : ∀ c ∈ p, isLoud c = false)
    (cs : List Char) : (throughQuote? quote (p ++ cs)).isSome = (throughQuote? quote cs).isSome := by
  induction p with
  | nil => rfl
  | cons c p ih =>
    have hc : isLoud c = false := hp c List.mem_cons_self
    have hcq : c ≠ quote := by
      intro heq
      subst heq
      rw [isLoud_quote hq] at hc
      cases hc
    have hcb : c ≠ '\\' := by
      intro heq
      subst heq
      exact absurd hc (by decide)
    rw [List.cons_append, throughQuote?_other hcq hcb, Option.isSome_map]
    exact ih fun d hd => hp d (List.mem_cons_of_mem c hd)

private theorem isSome_throughQuote?_backslash {p : List Char} (hp : Inert p) (cs : List Char) :
    (throughQuote? quote ('\\' :: (p ++ cs))).isSome = (throughQuote? quote cs).isSome := by
  obtain ⟨c, p, rfl, hj, _⟩ := hp.head
  have hc : c ≠ '\n' := by
    intro heq
    subst heq
    exact absurd hj (by decide)
  rw [List.cons_append, throughQuote?_escape (ne_backslash hq) hc, Option.isSome_map]
  exact isSome_throughQuote?_append hq (fun d hd => hp.quiet d (List.mem_cons_of_mem c hd)) cs

/-- A quoted text is closed in both texts or in none, also when a backslash stands before them. -/
theorem Alike.isSome_throughQuote? {cs ds : List Char} (h : Alike cs ds) :
    (throughQuote? quote cs).isSome = (throughQuote? quote ds).isSome ∧
      (throughQuote? quote ('\\' :: cs)).isSome = (throughQuote? quote ('\\' :: ds)).isSome := by
  -- As with the star, the backslash takes the next character with it.
  induction h with
  | nil => exact ⟨rfl, rfl⟩
  | @cons c cs ds _ ih =>
    constructor
    · by_cases hcq : c = quote
      · subst c
        rw [throughQuote?_quote, throughQuote?_quote]
        rfl
      · by_cases hcb : c = '\\'
        · subst c
          exact ih.2
        · rw [throughQuote?_other hcq hcb, throughQuote?_other hcq hcb, Option.isSome_map, Option.isSome_map]
          exact ih.1
    · by_cases hc : c = '\n'
      · subst c
        rw [throughQuote?_newline (ne_backslash hq), throughQuote?_newline (ne_backslash hq)]
      · rw [throughQuote?_escape (ne_backslash hq) hc, throughQuote?_escape (ne_backslash hq) hc,
          Option.isSome_map, Option.isSome_map]
        exact ih.1
  | @swap p r cs ds hp hr _ ih =>
    constructor
    · rw [isSome_throughQuote?_append hq hp.quiet, isSome_throughQuote?_append hq hr.quiet]
      exact ih.1
    · rw [isSome_throughQuote?_backslash hq hp, isSome_throughQuote?_backslash hq hr]
      exact ih.1

end Quoted

namespace Alike

private theorem begins_quoted {quote c : Char} {cs ds : List Char} (hq : quote ∈ ['\x27', '\x22', '\x60'])
    (h : Alike cs ds) (hb : (quoted? quote (c :: cs)).isSome) : (quoted? quote (c :: ds)).isSome := by
  obtain ⟨es, heq, hs⟩ := isSome_quoted?_iff.mp hb
  obtain ⟨rfl, rfl⟩ := List.cons.inj heq
  refine isSome_quoted?_iff.mpr ⟨ds, rfl, ?_⟩
  rw [← (h.isSome_throughQuote? hq).1]
  exact hs

/-- What begins with the same character before texts that are alike begins in both. -/
theorem begins {form : Form} {c : Char} {cs ds : List Char} (h : Alike cs ds) (hb : form.Begins (c :: cs)) :
    form.Begins (c :: ds) := by
  cases form with
  | lineComment =>
    obtain ⟨es, heq⟩ := begins_lineComment_iff.mp hb
    obtain ⟨rfl, rfl⟩ := List.cons.inj heq
    obtain ⟨fs, rfl, _⟩ := h.of_cons (Or.inl (by decide))
    exact begins_lineComment_iff.mpr ⟨fs, rfl⟩
  | blockComment =>
    obtain ⟨es, heq, hs⟩ := begins_blockComment_iff.mp hb
    obtain ⟨rfl, rfl⟩ := List.cons.inj heq
    obtain ⟨fs, rfl, hf⟩ := h.of_cons (Or.inr (by decide))
    rw [hf.isSome_throughStarSlash?.1] at hs
    exact begins_blockComment_iff.mpr ⟨fs, rfl, hs⟩
  | singleQuoted =>
    rw [begins_iff_isSome_read] at hb ⊢
    exact begins_quoted (by decide) h hb
  | doubleQuoted =>
    rw [begins_iff_isSome_read] at hb ⊢
    exact begins_quoted (by decide) h hb
  | backquoted =>
    rw [begins_iff_isSome_read] at hb ⊢
    exact begins_quoted (by decide) h hb
  | implicit =>
    obtain ⟨es, heq⟩ := begins_implicit_iff.mp hb
    obtain ⟨rfl, rfl⟩ := List.cons.inj heq
    exact begins_implicit_iff.mpr ⟨ds, rfl⟩
  | explicit =>
    obtain ⟨sigil, d, es, heq, hs, hd⟩ := begins_explicit_iff.mp hb
    obtain ⟨rfl, rfl⟩ := List.cons.inj heq
    have hj : isJoining d := isJoining_of_isNameChar (isNameChar_of_isDigit hd)
    obtain ⟨fs, rfl, _⟩ := h.of_cons (Or.inl hj)
    exact begins_explicit_iff.mpr ⟨c, d, fs, rfl, hs, hd⟩
  | named =>
    obtain ⟨sigil, d, es, heq, hs, hd⟩ := begins_named_iff.mp hb
    obtain ⟨rfl, rfl⟩ := List.cons.inj heq
    have hj : isJoining d := isJoining_of_isNameChar (isNameChar_of_isNameStart hd)
    obtain ⟨fs, rfl, _⟩ := h.of_cons (Or.inl hj)
    exact begins_named_iff.mpr ⟨c, d, fs, rfl, hs, hd⟩
  | percentNamed =>
    obtain ⟨d, name, es, heq, hd, hn⟩ := begins_percentNamed_iff.mp hb
    obtain ⟨rfl, rfl⟩ := List.cons.inj heq
    -- The parenthesis, the name and what closes it stand in the second text one after the other.
    obtain ⟨fs, rfl, hf⟩ := h.of_paren hd
    have hj : isJoining d := isJoining_of_isNameChar (isNameChar_of_isNameStart hd)
    obtain ⟨gs, rfl, hg⟩ := hf.of_cons (Or.inl hj)
    obtain ⟨ks, rfl, hk⟩ := hg.of_name hn
    obtain ⟨ms, rfl, hm⟩ := hk.of_cons (Or.inl (by decide))
    obtain ⟨os, rfl, _⟩ := hm.of_cons (Or.inl (by decide))
    exact begins_percentNamed_iff.mpr ⟨d, name, os, rfl, hd, hn⟩

/-- A lexeme is covered before every text that is like the one after it. -/
theorem covers {form : Form} {l : Lexeme} {cs ds : List Char} (h : Alike cs ds) (hl : form.Covers l cs) :
    form.Covers l ds := by
  cases hl with
  | lineComment hb =>
    apply Covers.lineComment
    rcases hb with ⟨hn, rfl⟩ | hb
    · exact Or.inl ⟨hn, h.eq_nil⟩
    · exact Or.inr hb
  | blockComment hb => exact .blockComment hb
  | singleQuoted hb => exact .singleQuoted hb
  | doubleQuoted hb => exact .doubleQuoted hb
  | backquoted hb => exact .backquoted hb
  | implicit => exact .implicit
  | explicit hc hn =>
    apply Covers.explicit hc
    rcases hn with hz | ⟨d, digits, rfl, h0, hd, hds, hs⟩
    · exact Or.inl hz
    · exact Or.inr ⟨d, digits, rfl, h0, hd, hds, h.stops (fun _ hc => isNameChar_of_isDigit hc) hs⟩
  | named hc hi =>
    obtain ⟨d, name, rfl, hd, hn, hs⟩ := hi
    exact .named hc ⟨d, name, rfl, hd, hn, h.stops (fun _ hc => hc) hs⟩
  | percentNamed hi =>
    obtain ⟨d, name, rfl, hd, hn, _⟩ := hi
    exact .percentNamed ⟨d, name, rfl, hd, hn, stops_paren _⟩

theorem silent {text cs ds : List Char} (h : Alike cs ds) (hs : Piece.Silent text cs) :
    Piece.Silent text ds := by
  intro after ha hne form hb
  obtain ⟨c, after, rfl⟩ := List.exists_cons_of_ne_nil hne
  exact hs _ ha hne form ((h.symm.append_left after).begins hb)

theorem fits {p : Piece} {cs ds : List Char} (h : Alike cs ds) (hp : p.Fits cs) : p.Fits ds := by
  cases p with
  | gap text => exact h.silent hp
  | lexeme l =>
    obtain ⟨form, hl⟩ := hp
    exact ⟨form, h.covers hl⟩

end Alike

namespace Piece

/-- Pieces before and after some of the lexemes are replaced. The new pieces and the old lexeme are inert,
and the new pieces may stand before every text that is like the one after them. -/
inductive Replaced : List Piece → List Piece → Prop
  | nil : Replaced [] []
  | keep (p : Piece) {old new : List Piece} : Replaced old new → Replaced (p :: old) (p :: new)
  | replace {l : Lexeme} {put old new : List Piece} : Inert l.text → Inert (put.flatMap text) →
    (∀ rest, Alike (old.flatMap text) rest → FitAll put rest) → Replaced old new →
    Replaced (.lexeme l :: old) (put ++ new)

theorem Replaced.alike {old new : List Piece} (h : Replaced old new) :
    Alike (old.flatMap text) (new.flatMap text) := by
  induction h with
  | nil => exact .nil
  | keep p _ ih =>
    rw [List.flatMap_cons, List.flatMap_cons]
    exact ih.append_left p.text
  | replace hl hput _ _ ih =>
    rw [List.flatMap_cons, List.flatMap_append]
    exact .swap hl hput ih

private theorem fitAll_append {pieces pieces' : List Piece} {rest : List Char}
    (h : FitAll pieces (pieces'.flatMap text ++ rest)) (h' : FitAll pieces' rest) :
    FitAll (pieces ++ pieces') rest := by
  induction pieces with
  | nil => exact h'
  | cons p pieces ih =>
    have hp : p.Fits ((pieces ++ pieces').flatMap text ++ rest) := by
      rw [List.flatMap_append, List.append_assoc]
      exact h.1
    exact ⟨hp, ih h.2⟩

theorem Replaced.fitAll {old new : List Piece} (h : Replaced old new) (hf : FitAll old []) :
    FitAll new [] := by
  induction h with
  | nil => trivial
  | keep p h ih =>
    refine ⟨?_, ih hf.2⟩
    have ha := hf.1
    rw [List.append_nil] at ha ⊢
    exact h.alike.fits ha
  | replace _ _ hput h ih =>
    refine fitAll_append ?_ (ih hf.2)
    rw [List.append_nil]
    exact hput _ h.alike

/-- Replacing lexemes of a text replaces them among its pieces, and changes no other piece. -/
theorem split_replaced {cs : List Char} {new : List Piece} (h : Replaced (split all cs) new) :
    split all (new.flatMap text) = new.foldr join [] := by
  have hf := split_flatMap (h.fitAll (fitAll_of_splits (splits_split cs)))
  rw [List.append_nil] at hf
  rw [hf, split]

end Piece
end Placeholder
