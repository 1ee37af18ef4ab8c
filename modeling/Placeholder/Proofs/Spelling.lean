import Placeholder.Proofs.Boundaries
import Placeholder.Proofs.Rereading

/-!
References spelled in other ways. A query says the same when a reference by index takes another sigil, or a
reference by name is written in another of its three ways: its tokens correspond one by one, and the passes
give the same or fail at corresponding parameters.
-/
namespace Placeholder
open Form Lexeme

variable {α β γ : Type}

namespace Token

/-- The text refers to what the token refers to, when `after` comes behind it. A name that stood in
parentheses may follow a sigil only where no character that comes behind would be taken for a part of it. -/
inductive Spells (t : Token) (after : List Char) : String → Prop
  | same : Spells t after t.text
  | index {sigil : Char} : t.kind = .explicit → sigil ∈ ['$', '@', ':'] →
    Spells t after (String.ofList (sigil :: t.inside.toList))
  | name {sigil : Char} : t.kind.isNamed → (t.kind = .percentNamed → Stops isNameChar after) →
    sigil ∈ ['@', ':'] → Spells t after (String.ofList (sigil :: t.inside.toList))
  | percent : t.kind.isNamed → Spells t after (String.ofList ('%' :: '(' :: t.inside.toList ++ [')', 's']))

/-- The texts refer to what the tokens refer to, one by one; plain text stays as it is. -/
inductive SpellAll : List Token → List String → Prop
  | nil : SpellAll [] []
  | cons {t : Token} {ts : List Token} {text : String} {texts : List String} :
    t.Spells (render ts).toList text → SpellAll ts texts → SpellAll (t :: ts) (text :: texts)

/-- Both tokens are the same plain text, or refer to the same binding. -/
structure Corresponds (t t' : Token) : Prop where
  reference : t'.reference? = t.reference?
  text : t.reference? = none → t'.text = t.text

private theorem text_of_spells_other {t : Token} {after : List Char} {text : String} (h : t.Spells after text)
    (hk : t.kind = .other) : text = t.text := by
  cases h with
  | same => rfl
  | index he => simp [hk] at he
  | name hn => simp [hk, Kind.isNamed] at hn
  | percent hn => simp [hk, Kind.isNamed] at hn

end Token

/-- Both runs succeed with the same, or fail for one cause, each at a parameter in the same place among its
tokens. -/
inductive SameOutcome (same : α → β → Prop) (ts ts' : List Token) :
    Except BindError α → Except BindError β → Prop
  | ok {a : α} {b : β} : same a b → SameOutcome same ts ts' (.ok a) (.ok b)
  | error {i : Nat} {t t' : Token} {cause : BindError.Cause} : ts[i]? = some t → ts'[i]? = some t' →
    t.isParameter → SameOutcome same ts ts' (.error (.ofToken cause t)) (.error (.ofToken cause t'))

namespace SameOutcome

variable {same : α → β → Prop} {ts ts' : List Token} {r : Except BindError α} {r' : Except BindError β}

theorem cons (h : SameOutcome same ts ts' r r') (t t' : Token) :
    SameOutcome same (t :: ts) (t' :: ts') r r' := by
  cases h with
  | ok hs => exact .ok hs
  | @error i u u' cause hu hu' hp =>
    refine .error (i := i + 1) ?_ ?_ hp
    · simpa using hu
    · simpa using hu'

theorem map {same' : γ → γ → Prop} {f : α → γ} {g : β → γ} (h : SameOutcome same ts ts' r r')
    (hsame : ∀ a b, same a b → same' (f a) (g b)) : SameOutcome same' ts ts' (r.map f) (r'.map g) := by
  cases h with
  | ok hs => exact .ok (hsame _ _ hs)
  | error hu hu' hp => exact .error hu hu' hp

end SameOutcome

/-! Lexemes that are spelled in another way are found before the same text. -/

private theorem name_of_covers {form : Form} {l : Lexeme} {rest : List Char} (h : form.Covers l rest)
    (hk : l.kind.isNamed) :
    (∃ c cs, l.inside = c :: cs ∧ isNameStart c ∧ ∀ d ∈ cs, isNameChar d) ∧
      (l.kind ≠ .percentNamed → Stops isNameChar rest) := by
  cases h with
  | named _ hi =>
    obtain ⟨c, cs, rfl, hc, hcs, hstop⟩ := hi
    exact ⟨⟨c, cs, rfl, hc, hcs⟩, fun _ => hstop⟩
  | percentNamed hi =>
    obtain ⟨c, cs, rfl, hc, hcs, _⟩ := hi
    exact ⟨⟨c, cs, rfl, hc, hcs⟩, fun hne => absurd rfl hne⟩
  | _ => cases hk

theorem natural_of_covers {form : Form} {l : Lexeme} {rest : List Char} (h : form.Covers l rest)
    (hk : l.kind = .explicit) : Natural l.inside rest := by
  cases h with
  | explicit _ hn => exact hn
  | _ => cases hk

namespace Lexeme

structure SameReference (l l' : Lexeme) : Prop where
  isParameter : l.kind.isParameter
  reference : ((Piece.lexeme l').token 0).reference? = ((Piece.lexeme l).token 0).reference?

private theorem sameReference_of_explicit {l : Lexeme} (h : l.kind = .explicit) (text : List Char) :
    l.SameReference ⟨.explicit, text, l.inside⟩ := by
  constructor
  · simp [h, Kind.isParameter]
  · simp [Piece.token, Token.reference?, h]

private theorem sameReference_of_isNamed {l l' : Lexeme} (h : l.kind.isNamed) (h' : l'.kind.isNamed)
    (hinside : l'.inside = l.inside) : l.SameReference l' := by
  constructor
  · cases hk : l.kind <;> simp_all [Kind.isNamed, Kind.isParameter]
  · have href : ∀ m : Lexeme, m.kind.isNamed →
        ((Piece.lexeme m).token 0).reference? = some (.name (String.ofList m.inside)) :=
      fun _ hm => Token.reference?_of_isNamed hm
    rw [href l h, href l' h', hinside]

theorem SameReference.isParameter_right {l l' : Lexeme} (h : l.SameReference l') : l'.kind.isParameter := by
  have hl : ((Piece.lexeme l).token 0).isParameter := h.isParameter
  rw [Token.isParameter_eq_isSome_reference?, ← h.reference, ← Token.isParameter_eq_isSome_reference?] at hl
  exact hl

end Lexeme

/-- What is spelled in another way is a lexeme before the same text. -/
theorem exists_lexeme_of_spells {form : Form} {l : Lexeme} {rest : List Char} {n : Nat} {text : String}
    (h : form.Covers l rest) (hs : ((Piece.lexeme l).token n).Spells rest text) :
    ∃ l' : Lexeme, l'.text = text.toList ∧ (∃ form' : Form, form'.Covers l' rest) ∧
      (l' = l ∨ l.SameReference l') := by
  have hinside : ((Piece.lexeme l).token n).inside.toList = l.inside := by simp [Piece.token]
  cases hs with
  | same => exact ⟨l, by simp [Piece.text], ⟨form, h⟩, Or.inl rfl⟩
  | @index sigil hk hs =>
    have hcovers : explicit.Covers ⟨.explicit, sigil :: l.inside, l.inside⟩ rest :=
      .explicit hs (natural_of_covers h hk)
    exact ⟨_, by simp [hinside], ⟨.explicit, hcovers⟩, Or.inr (sameReference_of_explicit hk _)⟩
  | @name sigil hk hstop hs =>
    obtain ⟨⟨c, cs, heq, hc, hcs⟩, hnamed⟩ := name_of_covers h hk
    have hrest : Stops isNameChar rest := by
      by_cases hp : l.kind = .percentNamed
      · exact hstop hp
      · exact hnamed hp
    have hcovers : named.Covers ⟨.named, sigil :: l.inside, l.inside⟩ rest :=
      .named hs ⟨c, cs, heq, hc, hcs, hrest⟩
    exact ⟨_, by simp [hinside], ⟨.named, hcovers⟩, Or.inr (sameReference_of_isNamed hk rfl rfl)⟩
  | percent hk =>
    obtain ⟨⟨c, cs, heq, hc, hcs⟩, _⟩ := name_of_covers h hk
    have hcovers : percentNamed.Covers
        ⟨.percentNamed, '%' :: '(' :: l.inside ++ [')', 's'], l.inside⟩ rest :=
      .percentNamed ⟨c, cs, heq, hc, hcs, stops_paren _⟩
    exact ⟨_, by simp [hinside], ⟨.percentNamed, hcovers⟩, Or.inr (sameReference_of_isNamed hk rfl rfl)⟩

namespace Piece

inductive Respelled : Piece → Piece → Prop
  | same (p : Piece) : Respelled p p
  | parameter {l l' : Lexeme} : l.SameReference l' → Respelled (.lexeme l) (.lexeme l')

theorem Respelled.exists_lexeme {l : Lexeme} {p' : Piece} (h : Respelled (.lexeme l) p') :
    ∃ l', p' = .lexeme l' := by
  cases h with
  | same => exact ⟨l, rfl⟩
  | parameter _ => exact ⟨_, rfl⟩

theorem Respelled.corresponds {p p' : Piece} (h : Respelled p p') (n n' : Nat) :
    (p.token n).Corresponds (p'.token n') := by
  cases h with
  | same =>
    have htext : (p.token n').text = (p.token n).text := by simp [← String.toList_inj]
    cases p <;> exact ⟨rfl, fun _ => htext⟩
  | @parameter l l' hr =>
    have hother : ((lexeme l).token n).reference? ≠ none := by
      have hp : ((lexeme l).token n).isParameter := hr.isParameter
      rwa [Token.isParameter_eq_isSome_reference?, Option.isSome_iff_ne_none] at hp
    exact ⟨hr.reference, fun hnone => absurd hnone hother⟩

theorem corresponds_tokens {pieces pieces' : List Piece} (h : List.Forall₂ Respelled pieces pieces')
    (n n' : Nat) : List.Forall₂ Token.Corresponds (tokens n pieces) (tokens n' pieces') := by
  induction h generalizing n n' with
  | nil => exact .nil
  | cons hp _ ih => exact .cons (hp.corresponds n n') (ih _ _)

private theorem begins_of_respelled {rest rest' : List Char} {pieces pieces' : List Piece} (hs : Splits rest pieces)
    (hb : rest = [] ∨ ∃ form : Form, form.Begins rest) (h : List.Forall₂ Respelled pieces pieces')
    (hs' : Splits rest' pieces') : rest' = [] ∨ ∃ form : Form, form.Begins rest' := by
  cases h with
  | nil =>
    cases hs'
    exact Or.inl rfl
  | cons hp _ =>
    obtain ⟨l, rfl⟩ := exists_lexeme_of_splits hb hs
    obtain ⟨l', rfl⟩ := hp.exists_lexeme
    exact Or.inr (begins_of_splits hs')

/-- The texts that spell the tokens of a text make one that splits into as many pieces, with the same plain
text and parameters that refer to the same. -/
theorem splits_of_spellAll {cs : List Char} {pieces : List Piece} (h : Splits cs pieces) {start : Nat}
    {texts : List String} (hs : Token.SpellAll (tokens start pieces) texts) :
    ∃ pieces', List.Forall₂ Respelled pieces pieces' ∧ pieces'.map text = texts.map String.toList ∧
      Splits (pieces'.flatMap text) pieces' ∧ Alike cs (pieces'.flatMap text) := by
  -- What comes after a piece is like what came after it, so that the piece fits before it as it did.
  induction h generalizing start texts with
  | nil =>
    cases hs
    exact ⟨[], .nil, rfl, .nil, .nil⟩
  | @lexeme form l rest pieces hl hrest ih =>
    cases hs with
    | @cons _ _ text' texts ht hs =>
      obtain ⟨pieces', hp, htexts, hsplits, halike⟩ := ih hs
      rw [toList_render_tokens, flatMap_text_of_splits hrest] at ht
      obtain ⟨l', htext, ⟨form', hl'⟩, hsame⟩ := exists_lexeme_of_spells hl ht
      refine ⟨.lexeme l' :: pieces', ?_, ?_, .lexeme (halike.covers hl') hsplits, ?_⟩
      · rcases hsame with rfl | hr
        · exact .cons (.same _) hp
        · exact .cons (.parameter hr) hp
      · rw [List.map_cons, List.map_cons, htexts, ← htext]
        rfl
      · rw [List.flatMap_cons]
        rcases hsame with rfl | hr
        · exact halike.append_left l'.text
        · exact .swap (inert_of_covers hl hr.isParameter) (inert_of_covers hl' hr.isParameter_right) halike
  | @gap gap rest pieces hne hsilent hb hrest ih =>
    cases hs with
    | @cons _ _ text' texts ht hs =>
      obtain ⟨pieces', hp, htexts, hsplits, halike⟩ := ih hs
      have htext : text' = String.ofList gap := Token.text_of_spells_other ht rfl
      refine ⟨.gap gap :: pieces', .cons (.same _) hp, ?_, ?_, ?_⟩
      · rw [List.map_cons, List.map_cons, htexts, htext, String.toList_ofList]
        rfl
      · exact .gap hne (halike.silent hsilent) (begins_of_respelled hrest hb hp hsplits) hsplits
      · exact halike.append_left gap

end Piece

theorem BoundTokens.toQuery_prepend {tokens tokens' : List Token} {bound bound' : BoundTokens β}
    (ht : Token.render tokens = Token.render tokens') (h : bound.toQuery = bound'.toQuery)
    (bindings : List β) :
    (bound.prepend tokens bindings).toQuery = (bound'.prepend tokens' bindings).toQuery := by
  obtain ⟨hquery, hbindings⟩ := BoundQuery.mk.inj h
  simp only [toQuery, prepend, Token.render_append, ht, hquery, hbindings]

/-- Resolution looks at what parameters refer to, and not at how they are written or where they stand. -/
theorem Token.resolveFrom_corresponds (env : Environment α) {ts ts' : List Token}
    (h : List.Forall₂ Corresponds ts ts') (used : Nat) :
    SameOutcome (fun r r' => r.1.toQuery = r'.1.toQuery) ts ts' (resolveFrom env used ts).result
      (resolveFrom env used ts').result := by
  induction h generalizing used with
  | nil => exact .ok rfl
  | @cons t t' ts ts' ht _ ih =>
    have hr' := ht.reference
    cases hr : t.reference? with
    | none =>
      rw [hr] at hr'
      rw [result_resolveFrom_other env used ts hr, result_resolveFrom_other env used ts' hr']
      have htext : render [t] = render [t'] := by
        rw [render_singleton, render_singleton, ht.text hr]
      exact ((ih used).cons t t').map fun r r' h => BoundTokens.toQuery_prepend htext h []
    | some r =>
      rw [hr] at hr'
      cases hb : env.referent used r with
      | error cause =>
        rw [result_resolveFrom_error env used ts hr hb, result_resolveFrom_error env used ts' hr' hb]
        have hp : t.isParameter := by simp [isParameter_eq_isSome_reference?, hr]
        exact .error (i := 0) rfl rfl hp
      | ok binding =>
        rw [result_resolveFrom_ok env used ts hr hb, result_resolveFrom_ok env used ts' hr' hb]
        exact ((ih _).cons t t').map fun r r' h => BoundTokens.toQuery_prepend rfl h [binding]

/-- The tokens of a query that has been respelled are the texts that spell the tokens it had. -/
theorem corresponds_lex {query : String} {texts : List String} (h : Token.SpellAll (lex query) texts) :
    (lex (String.join texts)).map Token.text = texts ∧
      List.Forall₂ Token.Corresponds (lex query) (lex (String.join texts)) := by
  obtain ⟨pieces', hp, htexts, hsplits, _⟩ := Piece.splits_of_spellAll (Piece.splits_split query.toList) h
  have hjoin : (String.join texts).toList = pieces'.flatMap Piece.text := by
    rw [String.toList_join, List.flatMap_def, List.flatMap_def, htexts]
  have hlex : lex (String.join texts) = Piece.tokens 0 pieces' := by
    rw [lex, lexBy, hjoin, ← Piece.splits_iff.mp hsplits]
  rw [hlex]
  refine ⟨?_, Piece.corresponds_tokens hp 0 0⟩
  rw [Piece.map_text_tokens, htexts, List.map_map]
  simp

theorem sameOutcome_resolve (env : Environment α) {query query' : String}
    (h : List.Forall₂ Token.Corresponds (lex query) (lex query')) :
    SameOutcome (· = ·) (lex query) (lex query') (resolve env query).result (resolve env query').result := by
  have hfrom := Token.resolveFrom_corresponds env h 0
  have htokens : SameOutcome (fun bound bound' => bound.toQuery = bound'.toQuery) (lex query) (lex query')
      (Token.resolve env (lex query)).result (Token.resolve env (lex query')).result := by
    rw [Token.result_resolve, Token.result_resolve]
    exact hfrom.map fun _ _ h => h
  rw [result_resolve, result_resolve]
  exact htokens.map fun _ _ h => h

/-- What is resolved alike is expanded alike, because expansion after resolution does not fail. -/
theorem sameOutcome_resolveAndExpand {env : Environment α} {query query' : String} {ts ts' : List Token}
    (h : SameOutcome (· = ·) ts ts' (resolve env query).result (resolve env query').result) :
    SameOutcome (· = ·) ts ts' (resolveAndExpand env query).result (resolveAndExpand env query').result := by
  generalize hr : (resolve env query).result = r at h
  generalize hr' : (resolve env query').result = r' at h
  cases h with
  | @ok bound bound' heq =>
    subst heq
    obtain ⟨expanded, hexpand, hboth⟩ := expand_of_resolve hr
    obtain ⟨expanded', hexpand', hboth'⟩ := expand_of_resolve hr'
    rw [hboth, hboth']
    apply SameOutcome.ok
    rw [hexpand] at hexpand'
    exact Except.ok.inj hexpand'
  | error ht ht' hp =>
    rw [resolveAndExpand_of_error hr, resolveAndExpand_of_error hr']
    exact .error ht ht' hp

/-- A query whose references are spelled in other ways has the tokens so spelled, and the passes give the same
for it, or fail for the same cause at the corresponding parameter. -/
theorem same_outcome_of_respelling {query : String} {texts : List String}
    (h : Token.SpellAll (lex query) texts) (env : Environment α) :
    (lex (String.join texts)).map Token.text = texts ∧
      SameOutcome (· = ·) (lex query) (lex (String.join texts)) (resolve env query).result
        (resolve env (String.join texts)).result ∧
      SameOutcome (· = ·) (lex query) (lex (String.join texts)) (resolveAndExpand env query).result
        (resolveAndExpand env (String.join texts)).result := by
  obtain ⟨htexts, hcorresponds⟩ := corresponds_lex h
  have hresolve := sameOutcome_resolve env hcorresponds
  exact ⟨htexts, hresolve, sameOutcome_resolveAndExpand hresolve⟩

/-- A name loses its parentheses and another gains some, behind a quote that is not closed. -/
theorem same_outcome_behind_quote :
    Token.SpellAll (lex "'%(x)s)@1a:y") ["'", ":x", ")", "$1", "a", "%(y)s"] ∧
      ∀ env : Environment Nat, SameOutcome (· = ·) (lex "'%(x)s)@1a:y") (lex "':x)$1a%(y)s")
        (resolveAndExpand env "'%(x)s)@1a:y").result (resolveAndExpand env "':x)$1a%(y)s").result := by
  have hlex : lex "'%(x)s)@1a:y" = [.other "'" ⟨0, 1⟩, ⟨.percentNamed, "%(x)s", "x", ⟨1, 6⟩⟩,
      .other ")" ⟨6, 7⟩, ⟨.explicit, "@1", "1", ⟨7, 9⟩⟩, .other "a" ⟨9, 10⟩,
      ⟨.named, ":y", "y", ⟨10, 12⟩⟩] := by decide +kernel
  have hspell : Token.SpellAll (lex "'%(x)s)@1a:y") ["'", ":x", ")", "$1", "a", "%(y)s"] := by
    rw [hlex]
    refine .cons .same (.cons ?_ (.cons .same (.cons ?_ (.cons .same (.cons (.percent rfl) .nil)))))
    · exact @Token.Spells.name _ _ ':' rfl (fun _ => stops_paren _) (by decide)
    · exact @Token.Spells.index _ _ '$' rfl (by decide)
  exact ⟨hspell, fun env => (same_outcome_of_respelling hspell env).2.2⟩

end Placeholder
