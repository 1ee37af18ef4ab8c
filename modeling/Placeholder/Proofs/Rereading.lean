import Placeholder.Proofs.Expansion
import Placeholder.Proofs.Relexing
import Placeholder.Proofs.Resolution

/-!
Queries that the passes have written, read again. Their placeholders stand in the same order as the bindings
given with them, so the passes can follow one another by way of the text, and find nothing more to do.
-/
namespace Placeholder

variable {α : Type}

/-- The parameters of the query are as many placeholders. -/
def Aligned (query : String) (count : Nat) : Prop :=
  Canonical (lex query) ∧ (lex query).countP Token.isImplicit = count

theorem render_map_respan (f : Span → Span) (ts : List Token) :
    Token.render (ts.map (Token.respan f)) = Token.render ts := by
  rw [Token.render, List.map_map]
  rfl

theorem map_canonical_lex {query : String} (h : Canonical (lex query)) :
    (lex query).map Token.canonical = lex query := by
  have hfit := Piece.fitAll_of_splits (Piece.splits_split query.toList)
  have hid : ∀ t ∈ lex query, t.canonical = id t := by
    intro t ht
    rcases h t ht with hk | hk
    · exact Token.canonical_other (Token.kind_eq_other_iff.mp hk)
    · rw [Piece.eq_implicit_of_mem_tokens hfit ht hk]
      rfl
  rw [List.map_congr_left hid, List.map_id]

/-- The tokens of a resolved query are the ones that resolution wrote, but for their places. -/
theorem lex_render_canonical (query : String) (span : Span) :
    (lex (Token.render ((lex query).map Token.canonical))).map (Token.respan fun _ => span) =
      ((lex query).map Token.canonical).map (Token.respan fun _ => span) := by
  have htext : (Token.render ((lex query).map Token.canonical)).toList =
      ((Piece.split Form.all query.toList).map (Piece.mapLexeme Lexeme.canonical)).flatMap Piece.text := by
    rw [← render_map_respan fun _ => span, lex, lexBy, ← Piece.respan_tokens_canonical span 0 0,
      render_map_respan, Piece.toList_render_tokens]
  rw [lex, lexBy, htext, Piece.split_canonical, Piece.respan_tokens_canonical span 0 0]
  rfl

private theorem canonical_of_map_respan_eq {f : Span → Span} {ts ts' : List Token}
    (h : ts.map (Token.respan f) = ts'.map (Token.respan f)) (hc : Canonical ts') :
    Canonical ts ∧ ts.countP Token.isImplicit = ts'.countP Token.isImplicit := by
  have hkinds : ∀ us : List Token, (us.map (Token.respan f)).map Token.kind = us.map Token.kind := by
    intro us
    rw [List.map_map]
    rfl
  have hcount : ∀ us : List Token,
      us.countP Token.isImplicit = (us.map Token.kind).countP (· == .implicit) := by
    intro us
    rw [List.countP_map]
    rfl
  have heq : ts.map Token.kind = ts'.map Token.kind := by rw [← hkinds, h, hkinds]
  refine ⟨fun t ht => ?_, by rw [hcount, heq, ← hcount]⟩
  have hk : t.kind ∈ ts'.map Token.kind := by
    rw [← heq]
    exact List.mem_map_of_mem ht
  obtain ⟨t', ht', hk'⟩ := List.mem_map.mp hk
  rw [← hk']
  exact hc t' ht'

private theorem exists_of_resolve_ok {env : Environment α} {query : String} {bound : BoundQuery (Binding α)}
    (h : (resolve env query).result = .ok bound) :
    ∃ resolved, (Token.resolve env (lex query)).result = .ok resolved ∧
      resolved.tokens = (lex query).map Token.canonical ∧
      resolved.bindings.length = (lex query).countP Token.isParameter ∧ bound = resolved.toQuery := by
  rw [result_resolve] at h
  obtain ⟨resolved, hres, rfl⟩ := map_eq_ok_iff.mp h
  exact ⟨resolved, hres, (Token.bound_of_resolve hres).1, Token.length_bindings_of_resolve hres, rfl⟩

theorem aligned_of_resolve {env : Environment α} {query : String} {bound : BoundQuery (Binding α)}
    (h : (resolve env query).result = .ok bound) : Aligned bound.query bound.bindings.length := by
  obtain ⟨resolved, _, htokens, hlength, rfl⟩ := exists_of_resolve_ok h
  obtain ⟨hc, hn⟩ := canonical_of_map_respan_eq (lex_render_canonical query default)
    (Token.canonical_map_canonical (lex query))
  rw [BoundTokens.toQuery, htokens]
  exact ⟨hc, by rw [hn, Token.countP_isImplicit_map_canonical, hlength]⟩

theorem aligned_of_expand {bindings : List (Binding α)} {query : String} {bound : BoundQuery α}
    (h : (expand bindings query).result = .ok bound) : Aligned bound.query bound.bindings.length := by
  rw [result_expand, Token.result_expand] at h
  obtain ⟨_, hfrom, rfl⟩ := map_eq_ok_iff.mp h
  obtain ⟨r, hr, rfl⟩ := map_eq_ok_iff.mp hfrom
  obtain ⟨new, hnew, hwrites⟩ :=
    Piece.replaced_of_expandFrom (Piece.fitAll_of_splits (Piece.splits_split query.toList)) hr
  have hsplit : Piece.split Form.all (BoundTokens.toQuery r.1).query.toList = new.foldr Piece.join [] := by
    rw [← Piece.split_replaced hnew, hwrites.text]
    rfl
  rw [Aligned, lex, lexBy, hsplit]
  refine Piece.canonical_tokens ?_ 0
  rw [Piece.parameters_foldr_join, hwrites.parameters]
  rfl

theorem resolve_of_aligned {env : Environment α} {query : String}
    (h : Aligned query env.positionals.length) :
    (resolve env query).result = .ok ⟨query, env.positionals⟩ := by
  have hp : env.positionals = [] ++ (env.positionals ++ []) := by simp
  have hr := Token.resolveFrom_of_canonical h.1 hp h.2
  rw [List.length_nil, map_canonical_lex h.1] at hr
  rw [result_resolve, Token.result_resolve, hr]
  change Except.ok (BoundTokens.toQuery ⟨lex query, env.positionals⟩) = _
  rw [BoundTokens.toQuery, lex, render_lexBy]

theorem expand_of_aligned {query : String} {values : List α} (h : Aligned query values.length) :
    (expand (values.map .scalar) query).result = .ok ⟨query, values⟩ := by
  rw [result_expand, Token.result_expand, Token.expandFrom_scalars h.1 h.2]
  change Except.ok (BoundTokens.toQuery ⟨lex query, values⟩) = _
  rw [BoundTokens.toQuery, lex, render_lexBy]

/-- Expansion of tokens that differ in their places writes the same text. -/
theorem toQuery_expand_eq {span : Span} {ts ts' : List Token} {bindings : List (Binding α)}
    {bound : BoundTokens α}
    (h : ts.map (Token.respan fun _ => span) = ts'.map (Token.respan fun _ => span))
    (hb : (Token.expand bindings ts').result = .ok bound) :
    (Token.expand bindings ts).result.map BoundTokens.toQuery = .ok bound.toQuery := by
  rw [Token.result_expand] at hb ⊢
  obtain ⟨r', hr', rfl⟩ := map_eq_ok_iff.mp hb
  have hrespan := Token.result_expandFrom_respan (fun _ => span) bindings ts
  rw [h, Token.result_expandFrom_respan, hr'] at hrespan
  cases hr : (Token.expandFrom bindings ts).result with
  | error e =>
    rw [hr] at hrespan
    cases hrespan
  | ok r =>
    rw [hr] at hrespan
    have hbound : r'.1.respan (fun _ => span) = r.1.respan fun _ => span :=
      congrArg Prod.fst (Except.ok.inj hrespan)
    have hquery : ∀ b : BoundTokens α, (b.respan fun _ => span).toQuery = b.toQuery := by
      intro b
      rw [BoundTokens.toQuery, BoundTokens.respan, render_map_respan]
      rfl
    change Except.ok r.1.toQuery = Except.ok r'.1.toQuery
    rw [← hquery r.1, ← hbound, hquery]

/-- Once a query has been resolved, expansion of what has been written succeeds, and so does expansion of
the tokens that were not written, with the same result. -/
theorem expand_of_resolve {env : Environment α} {query : String} {bound : BoundQuery (Binding α)}
    (h : (resolve env query).result = .ok bound) :
    ∃ expanded, (expand bound.bindings bound.query).result = .ok expanded ∧
      (resolveAndExpand env query).result = .ok expanded := by
  obtain ⟨resolved, hres, htokens, hlength, rfl⟩ := exists_of_resolve_ok h
  have hcount : resolved.tokens.countP Token.isImplicit = resolved.bindings.length := by
    rw [htokens, Token.countP_isImplicit_map_canonical, hlength]
  have hc : Canonical resolved.tokens := htokens ▸ Token.canonical_map_canonical (lex query)
  obtain ⟨bound, hexpand⟩ := Token.expand_isOk_iff.mpr ⟨hc, Nat.le_of_eq hcount⟩
  refine ⟨bound.toQuery, ?_, ?_⟩
  -- The text is read again as the tokens that it was made of, with other spans.
  · have hlex : (lex resolved.toQuery.query).map (Token.respan fun _ => default) =
        resolved.tokens.map (Token.respan fun _ => default) := by
      rw [BoundTokens.toQuery, htokens]
      exact lex_render_canonical query default
    rw [result_expand]
    exact toQuery_expand_eq hlex hexpand
  · rw [result_resolveAndExpand, hres]
    change (Token.expand resolved.bindings resolved.tokens).result.map _ = _
    rw [hexpand]
    rfl

theorem resolveAndExpand_of_error {env : Environment α} {query : String} {e : BindError}
    (h : (resolve env query).result = .error e) : (resolveAndExpand env query).result = .error e := by
  rw [result_resolve] at h
  have hres : (Token.resolve env (lex query)).result = .error e := map_eq_error_iff.mp h
  rw [result_resolveAndExpand, hres]
  rfl

private theorem exists_of_resolveAndExpand_ok {env : Environment α} {query : String} {expanded : BoundQuery α}
    (h : (resolveAndExpand env query).result = .ok expanded) :
    ∃ bound, (resolve env query).result = .ok bound ∧
      (expand bound.bindings bound.query).result = .ok expanded := by
  cases hres : (resolve env query).result with
  | error e =>
    rw [resolveAndExpand_of_error hres] at h
    cases h
  | ok bound =>
    obtain ⟨expanded', hexpand, hboth⟩ := expand_of_resolve hres
    rw [hboth] at h
    cases h
    exact ⟨bound, rfl, hexpand⟩

/-- Resolving and expanding in one go gives what the two passes give one after the other by way of the
text, and the second of them does not fail. -/
theorem resolveAndExpand_eq_resolve_then_expand (env : Environment α) (query : String) :
    (resolveAndExpand env query).result =
        ((resolve env query).result.bind fun bound => (expand bound.bindings bound.query).result) ∧
      ∀ bound, (resolve env query).result = .ok bound →
        ∃ expanded, (expand bound.bindings bound.query).result = .ok expanded := by
  constructor
  · cases hres : (resolve env query).result with
    | error e => exact resolveAndExpand_of_error hres
    | ok bound =>
      obtain ⟨expanded, hexpand, hboth⟩ := expand_of_resolve hres
      rw [hboth]
      exact hexpand.symm
  · intro bound hres
    obtain ⟨expanded, hexpand, _⟩ := expand_of_resolve hres
    exact ⟨expanded, hexpand⟩

private theorem eq_ok_of_toOption {ε β : Type} {r : Except ε β} {b : β} (h : r.toOption = some b) : r = .ok b := by
  cases r with
  | error e => cases h
  | ok b' =>
    cases h
    rfl

theorem expand_after_resolve_index :
    (resolve (⟨∅, [.sequence [7, 8]]⟩ : Environment Nat) "a=$1").result =
        .ok ⟨"a=?", [.sequence [7, 8]]⟩ ∧
      ∃ expanded, (expand [.sequence [7, 8]] "a=?").result = .ok expanded := by
  have hres : (resolve (⟨∅, [.sequence [7, 8]]⟩ : Environment Nat) "a=$1").result =
      .ok ⟨"a=?", [.sequence [7, 8]]⟩ := eq_ok_of_toOption (by decide +kernel)
  exact ⟨hres, (resolveAndExpand_eq_resolve_then_expand ⟨∅, [.sequence [7, 8]]⟩ "a=$1").2 _ hres⟩

/-- What the passes write is aligned with its bindings, and each pass gives it back when it is run again
on it with these bindings. -/
theorem passes_stable_on_output :
    (∀ (env : Environment α) (query : String) (bound : BoundQuery (Binding α)),
      (resolve env query).result = .ok bound →
        Aligned bound.query bound.bindings.length ∧
        ∀ named, (resolve ⟨named, bound.bindings⟩ bound.query).result = .ok bound) ∧
    (∀ (bindings : List (Binding α)) (query : String) (bound : BoundQuery α),
      (expand bindings query).result = .ok bound →
        Aligned bound.query bound.bindings.length ∧
        (expand (bound.bindings.map .scalar) bound.query).result = .ok bound) ∧
    ∀ (env : Environment α) (query : String) (bound : BoundQuery α),
      (resolveAndExpand env query).result = .ok bound →
        Aligned bound.query bound.bindings.length ∧
        ∀ named, (resolveAndExpand ⟨named, bound.bindings.map .scalar⟩ bound.query).result = .ok bound := by
  refine ⟨?_, ?_, ?_⟩
  · intro env query bound h
    exact ⟨aligned_of_resolve h, fun named => resolve_of_aligned (aligned_of_resolve h)⟩
  · intro bindings query bound h
    exact ⟨aligned_of_expand h, expand_of_aligned (aligned_of_expand h)⟩
  · intro env query expanded h
    obtain ⟨bound, _, hexpand⟩ := exists_of_resolveAndExpand_ok h
    have ha := aligned_of_expand hexpand
    refine ⟨ha, fun named => ?_⟩
    -- Resolution gives the output back with its scalars, and so does expansion after it.
    have hres : (resolve ⟨named, expanded.bindings.map .scalar⟩ expanded.query).result =
        .ok ⟨expanded.query, expanded.bindings.map .scalar⟩ := by
      apply resolve_of_aligned
      rw [List.length_map]
      exact ha
    obtain ⟨expanded', hexpand', hboth⟩ := expand_of_resolve hres
    rw [expand_of_aligned ha] at hexpand'
    cases hexpand'
    exact hboth

theorem list_stable_on_output :
    ((resolve (⟨∅, [.sequence [7, 8]]⟩ : Environment Nat) "a=$1").result =
        .ok ⟨"a=?", [.sequence [7, 8]]⟩ ∧
      (resolve (⟨∅, [.sequence [7, 8]]⟩ : Environment Nat) "a=?").result =
        .ok ⟨"a=?", [.sequence [7, 8]]⟩) ∧
    ((expand [.sequence [7, 8]] "a=?").result = .ok ⟨"a=(?, ?)", [7, 8]⟩ ∧
      (expand [.scalar 7, .scalar 8] "a=(?, ?)").result = .ok ⟨"a=(?, ?)", [7, 8]⟩) ∧
    (resolveAndExpand (⟨∅, [.sequence [7, 8]]⟩ : Environment Nat) "a=$1").result =
        .ok ⟨"a=(?, ?)", [7, 8]⟩ ∧
      Aligned "a=(?, ?)" 2 ∧
      (resolveAndExpand (⟨∅, [.scalar 7, .scalar 8]⟩ : Environment Nat) "a=(?, ?)").result =
        .ok ⟨"a=(?, ?)", [7, 8]⟩ := by
  have hresolve : (resolve (⟨∅, [.sequence [7, 8]]⟩ : Environment Nat) "a=$1").result =
      .ok ⟨"a=?", [.sequence [7, 8]]⟩ := eq_ok_of_toOption (by decide +kernel)
  have hexpand : (expand [.sequence [7, 8]] "a=?").result = .ok ⟨"a=(?, ?)", [7, 8]⟩ :=
    eq_ok_of_toOption (by decide +kernel)
  have hboth : (resolveAndExpand (⟨∅, [.sequence [7, 8]]⟩ : Environment Nat) "a=$1").result =
      .ok ⟨"a=(?, ?)", [7, 8]⟩ := eq_ok_of_toOption (by decide +kernel)
  obtain ⟨haligned, hstable⟩ := passes_stable_on_output.2.2 _ _ _ hboth
  refine ⟨⟨hresolve, ?_⟩, ⟨hexpand, ?_⟩, hboth, haligned, hstable ∅⟩
  · exact (passes_stable_on_output.1 _ _ _ hresolve).2 ∅
  · exact (passes_stable_on_output.2.1 _ _ _ hexpand).2

end Placeholder
