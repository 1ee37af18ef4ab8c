import Placeholder.Proofs.Boundaries
import Placeholder.Proofs.Ranks
import Placeholder.Proofs.Rereading
import Mathlib.Control.Monad.Basic

/-!
Where a pass fails. Its error points at a parameter of the query, and the query up to that parameter is the
shortest part of it, token by token, for which the pass fails.
-/
namespace Placeholder

variable {α β : Type}

/-- The error of the query is that of one parameter: the pass succeeds on the text before it, fails in the
same way on the text through it, and on no shorter row of tokens. -/
structure Pinpoints (run : String → Except BindError (BoundQuery β)) (query : String) (e : BindError) :
    Prop where
  slice : e.span.slice query = some e.text
  parameter : ∃ t ∈ lex query, t.isParameter ∧ t.text = e.text ∧ t.span = e.span
  before : ∃ part bound, (⟨0, e.span.start⟩ : Span).slice query = some part ∧ run part = .ok bound
  through : ∃ part, (⟨0, e.span.stop⟩ : Span).slice query = some part ∧ run part = .error e
  shortest : ∀ ts, ts <+: lex query → (∃ e', run (Token.render ts) = .error e') →
    e.span.stop ≤ Token.bytes ts

/-- Passes that fail alike have their errors at the same places. -/
theorem Pinpoints.of_errors_eq {γ : Type} {run : String → Except BindError (BoundQuery β)}
    {run' : String → Except BindError (BoundQuery γ)} {query : String} {e : BindError}
    (h : Pinpoints run query e) (heq : ∀ q e, run q = .error e ↔ run' q = .error e) :
    Pinpoints run' query e where
  slice := h.slice
  parameter := h.parameter
  before := by
    obtain ⟨part, bound, hslice, hok⟩ := h.before
    cases hrun : run' part with
    | error e' =>
      rw [(heq part e').mpr hrun] at hok
      cases hok
    | ok bound' => exact ⟨part, bound', hslice, hrun⟩
  through := by
    obtain ⟨part, hslice, herror⟩ := h.through
    exact ⟨part, hslice, (heq part e).mp herror⟩
  shortest := by
    rintro ts hts ⟨e', herror⟩
    exact h.shortest ts hts ⟨e', (heq _ e').mpr herror⟩

namespace Rule

def onQuery (rule : Rule β) (query : String) : Except BindError (BoundQuery β) :=
  (rule.run (Token.ranked 0 (lex query))).map BoundTokens.toQuery

theorem onQuery_eq_error_iff {rule : Rule β} {query : String} {e : BindError} :
    rule.onQuery query = .error e ↔ rule.run (Token.ranked 0 (lex query)) = .error e := by
  rw [onQuery]
  cases rule.run (Token.ranked 0 (lex query)) <;> simp [Except.map]

private theorem onQuery_isOk {rule : Rule β} {query : String}
    (h : ∃ bound, rule.run (Token.ranked 0 (lex query)) = .ok bound) :
    ∃ bound, rule.onQuery query = .ok bound := by
  obtain ⟨bound, h⟩ := h
  exact ⟨bound.toQuery, by rw [onQuery, h]; rfl⟩

/-- Whatever the rule, the error of a run points at the parameter where it arises. -/
theorem pinpoints {rule : Rule β} {query : String} {e : BindError} (h : rule.onQuery query = .error e) :
    Pinpoints rule.onQuery query e := by
  obtain ⟨before, t, after, hlex, hparam, htext, hspan, hclean, hfault⟩ :=
    exists_fault (onQuery_eq_error_iff.mp h)
  have hbounds : e.span = ⟨Token.bytes before, Token.bytes (before ++ [t])⟩ :=
    hspan.trans (span_of_lex_append hlex)
  have hthrough : lex query = (before ++ [t]) ++ after := by
    rw [hlex, List.append_assoc, List.singleton_append]
  -- Cut between tokens, the query keeps its tokens on both sides.
  have hlexes : ∀ ts, ts <+: lex query → lex (Token.render ts) = ts := by
    rintro ts ⟨us, hus⟩
    exact (lex_render_of_append hus.symm).1
  have hlexBefore : lex (Token.render before) = before := hlexes before ⟨_, hlex.symm⟩
  have hlexThrough : lex (Token.render (before ++ [t])) = before ++ [t] := hlexes _ ⟨after, hthrough.symm⟩
  constructor
  · have hcovered : lex query = before ++ ([t] ++ after) := hlex
    rw [hbounds, htext, slice_of_lex_append hcovered, Token.render_singleton]
  · exact ⟨t, by rw [hlex]; simp, hparam, htext.symm, hspan.symm⟩
  · have hok : ∃ bound, rule.run (Token.ranked 0 (lex (Token.render before))) = .ok bound := by
      rw [hlexBefore]
      exact hclean before List.prefix_rfl
    obtain ⟨bound, hbound⟩ := onQuery_isOk hok
    exact ⟨Token.render before, bound, hbounds ▸ slice_front_of_lex_append hlex, hbound⟩
  · refine ⟨Token.render (before ++ [t]), hbounds ▸ slice_front_of_lex_append hthrough, ?_⟩
    rw [onQuery_eq_error_iff, hlexThrough]
    exact hfault
  · rintro ts hts ⟨e', herror⟩
    rw [onQuery_eq_error_iff, hlexes ts hts] at herror
    rw [hbounds]
    rcases List.prefix_or_prefix_of_prefix hts ⟨after, hthrough.symm⟩ with hle | ⟨rest, rfl⟩
    · rcases List.prefix_concat_iff.mp hle with rfl | hle
      · exact Nat.le_refl _
      · obtain ⟨bound, hok⟩ := hclean ts hle
        rw [hok] at herror
        cases herror
    · rw [Token.bytes_append (before ++ [t])]
      exact Nat.le_add_right _ _

end Rule

theorem result_resolve_eq_onQuery (env : Environment α) (query : String) :
    (resolve env query).result = env.resolution.onQuery query := by
  rw [result_resolve, Token.result_resolve_eq_run, Rule.onQuery]

theorem result_expand_eq_onQuery (bindings : List (Binding α)) (query : String) :
    (expand bindings query).result = (Binding.expansion bindings).onQuery query := by
  rw [result_expand, Token.result_expand_eq_run, Rule.onQuery]

/-- Of the two passes in one go only the first can fail. -/
theorem resolveAndExpand_eq_error_iff {env : Environment α} {query : String} {e : BindError} :
    (resolveAndExpand env query).result = .error e ↔ (resolve env query).result = .error e := by
  refine ⟨fun h => ?_, resolveAndExpand_of_error⟩
  cases hres : (resolve env query).result with
  | error e' =>
    rw [resolveAndExpand_of_error hres] at h
    cases h
    rfl
  | ok bound =>
    obtain ⟨expanded, _, hboth⟩ := expand_of_resolve hres
    rw [hboth] at h
    cases h

/-- The error of each pass points at the parameter that it is about, which ends the shortest part of the
query, token by token, on which the pass fails. -/
theorem error_ends_shortest_failing_part :
    (∀ (env : Environment α) (query : String) (e : BindError), (resolve env query).result = .error e →
      Pinpoints (fun q => (resolve env q).result) query e) ∧
    (∀ (bindings : List (Binding α)) (query : String) (e : BindError),
      (expand bindings query).result = .error e → Pinpoints (fun q => (expand bindings q).result) query e) ∧
    ∀ (env : Environment α) (query : String) (e : BindError),
      (resolveAndExpand env query).result = .error e →
        Pinpoints (fun q => (resolveAndExpand env q).result) query e := by
  have hresolve : ∀ (env : Environment α) query e, (resolve env query).result = .error e →
      Pinpoints (fun q => (resolve env q).result) query e := by
    intro env query e h
    rw [result_resolve_eq_onQuery] at h
    rw [funext (result_resolve_eq_onQuery env)]
    exact Rule.pinpoints h
  refine ⟨hresolve, fun bindings query e h => ?_, fun env query e h => ?_⟩
  · rw [result_expand_eq_onQuery] at h
    rw [funext (result_expand_eq_onQuery bindings)]
    exact Rule.pinpoints h
  · exact (hresolve env query e (resolveAndExpand_eq_error_iff.mp h)).of_errors_eq
      fun q e => resolveAndExpand_eq_error_iff.symm

theorem errors_after_comment :
    ((resolve (⟨∅, [.scalar 7]⟩ : Environment Nat) "é=? -- ?\n$2:x").result =
        .error ⟨.positionalOutOfRange 1, "$2", ⟨10, 12⟩⟩ ∧
      Pinpoints (fun q => (resolve (⟨∅, [.scalar 7]⟩ : Environment Nat) q).result) "é=? -- ?\n$2:x"
        ⟨.positionalOutOfRange 1, "$2", ⟨10, 12⟩⟩) ∧
    ((expand [.sequence [7]] "é=? /* ?\n:x?").result = .error ⟨.positionalExhausted, "?", ⟨8, 9⟩⟩ ∧
      Pinpoints (fun q => (expand [.sequence [7]] q).result) "é=? /* ?\n:x?"
        ⟨.positionalExhausted, "?", ⟨8, 9⟩⟩) ∧
    (resolveAndExpand (⟨∅, [.sequence [7]]⟩ : Environment Nat) "é=? '?':x?").result =
        .error ⟨.unboundName, ":x", ⟨8, 10⟩⟩ ∧
      Pinpoints (fun q => (resolveAndExpand (⟨∅, [.sequence [7]]⟩ : Environment Nat) q).result) "é=? '?':x?"
        ⟨.unboundName, ":x", ⟨8, 10⟩⟩ := by
  have hresolve : (resolve (⟨∅, [.scalar 7]⟩ : Environment Nat) "é=? -- ?\n$2:x").result =
      .error ⟨.positionalOutOfRange 1, "$2", ⟨10, 12⟩⟩ := by decide +kernel
  have hexpand : (expand [.sequence [7]] "é=? /* ?\n:x?").result =
      .error ⟨.positionalExhausted, "?", ⟨8, 9⟩⟩ := by decide +kernel
  have hboth : (resolveAndExpand (⟨∅, [.sequence [7]]⟩ : Environment Nat) "é=? '?':x?").result =
      .error ⟨.unboundName, ":x", ⟨8, 10⟩⟩ := by decide +kernel
  exact ⟨⟨hresolve, error_ends_shortest_failing_part.1 _ _ _ hresolve⟩,
    ⟨hexpand, error_ends_shortest_failing_part.2.1 _ _ _ hexpand⟩, hboth,
    error_ends_shortest_failing_part.2.2 _ _ _ hboth⟩

end Placeholder
