import Placeholder.Proofs.Reach
import Placeholder.Proofs.Rereading

/-!
Queries whose parameters are placeholders already. To expand such a query with the positional bindings, and to
resolve it first and then expand it, is the same, whether there are bindings for all placeholders or not.
-/
namespace Placeholder

variable {α β γ : Type}

namespace Rule

variable {rule : Rule β} {rule' : Rule γ} {ps : List (Token × Nat)} {e : BindError}

private theorem run_eq_error_of_put
    (h : ∀ p ∈ ps, ∀ cause, rule.put p.2 p.1 = .error cause ↔ rule'.put p.2 p.1 = .error cause)
    (he : rule.run ps = .error e) : rule'.run ps = .error e := by
  obtain ⟨before, t, n, after, cause, rfl, hclean, ht, rfl⟩ := run_eq_error_iff.mp he
  obtain ⟨hbefore, hrest⟩ := List.forall_mem_append.mp h
  have hclean' : ∀ p ∈ before, ∀ cause, rule'.put p.2 p.1 ≠ .error cause := by
    intro p hp cause' hput
    exact hclean p hp cause' ((hbefore p hp cause').mpr hput)
  have ht' : rule'.put n t = .error cause := (hrest (t, n) List.mem_cons_self cause).mp ht
  exact run_eq_error_iff.mpr ⟨before, t, n, after, cause, rfl, hclean', ht', rfl⟩

/-- Rules that refuse the same tokens for the same causes fail alike. -/
theorem run_eq_error_congr
    (h : ∀ p ∈ ps, ∀ cause, rule.put p.2 p.1 = .error cause ↔ rule'.put p.2 p.1 = .error cause) :
    rule.run ps = .error e ↔ rule'.run ps = .error e :=
  ⟨run_eq_error_of_put h, run_eq_error_of_put fun p hp cause => (h p hp cause).symm⟩

end Rule

namespace Token

variable {env : Environment α} {ts : List Token}

/-- Plain text and placeholders are refused by neither pass, or by both because the positions are used up. -/
theorem unbound_iff_unexpandable {t : Token} (hk : t.kind = .other ∨ t.kind = .implicit) (before : Nat)
    (cause : BindError.Cause) :
    t.Unbound env before cause ↔ t.Unexpandable env.positionals before cause := by
  have hexplicit : t.kind ≠ .explicit := by
    intro he
    rw [he] at hk
    rcases hk with hk | hk <;> cases hk
  have hnamed : ¬ t.kind.isNamed := by
    intro hn
    rcases hk with hk | hk <;> rw [hk] at hn <;> cases hn
  constructor
  · intro h
    cases h with
    | placeholder hi hlen => exact .placeholder hi hlen
    | zero he _ => exact absurd he hexplicit
    | malformed he _ _ => exact absurd he hexplicit
    | pastEnd he _ _ => exact absurd he hexplicit
    | tooLarge he _ => exact absurd he hexplicit
    | name hn _ => exact absurd hn hnamed
  · intro h
    cases h with
    | placeholder hi hlen => exact .placeholder hi hlen
    | index he => exact absurd he hexplicit
    | name hn => exact absurd hn hnamed

/-- On canonical tokens both passes fail for the same reason at the same placeholder. -/
theorem resolve_eq_error_iff_of_canonical (hc : Canonical ts) {e : BindError} :
    (resolve env ts).result = .error e ↔ (expand env.positionals ts).result = .error e := by
  rw [result_resolve_eq_run, result_expand_eq_run]
  apply Rule.run_eq_error_congr
  intro p hp cause
  rw [put_eq_error_iff, put_expansion_eq_error_iff]
  exact unbound_iff_unexpandable (hc p.1 (mem_of_mem_ranked hp)) p.2 cause

/-- Resolution of canonical tokens gives the first bindings to the placeholders. -/
theorem resolve_of_canonical (hc : Canonical ts) (hcount : ts.countP isImplicit ≤ env.positionals.length) :
    (resolve env ts).result =
      .ok ⟨ts.map canonical, env.positionals.take (ts.countP isImplicit)⟩ := by
  have hp : env.positionals = [] ++ (env.positionals.take (ts.countP isImplicit) ++
      env.positionals.drop (ts.countP isImplicit)) := by
    rw [List.nil_append, List.take_append_drop]
  have hn : ts.countP isImplicit = (env.positionals.take (ts.countP isImplicit)).length := by
    rw [List.length_take]
    omega
  have hfrom := resolveFrom_of_canonical hc hp hn
  rw [List.length_nil] at hfrom
  rw [result_resolve, hfrom]
  rfl

end Token

/-- A query that holds no parameters but placeholders is expanded to the same query, with the same values or
with the same error, whether it is resolved before or not. -/
theorem expand_eq_resolveAndExpand_of_canonical {query : String} (hc : Canonical (lex query))
    (env : Environment α) : (expand env.positionals query).result = (resolveAndExpand env query).result := by
  rw [result_expand, result_resolveAndExpand]
  cases hresolve : (Token.resolve env (lex query)).result with
  | error e =>
    rw [(Token.resolve_eq_error_iff_of_canonical hc).mp hresolve]
    rfl
  | ok bound =>
    obtain ⟨_, _, hcount⟩ := Token.resolve_isOk_iff.mp ⟨bound, hresolve⟩
    have hbound := Token.resolve_of_canonical hc hcount
    rw [hresolve, map_canonical_lex hc] at hbound
    have htaken : ∀ i < (lex query).countP Token.isImplicit,
        env.positionals[i]? = (env.positionals.take ((lex query).countP Token.isImplicit))[i]? := by
      intro i hi
      rw [List.getElem?_take_of_lt hi]
    rw [Except.ok.inj hbound, Token.expand_congr htaken]
    rfl

/-- One binding too few, and one too many. -/
theorem expand_eq_resolveAndExpand_of_placeholders :
    Canonical (lex "a=? and b=?") ∧
    ((expand [.sequence [7, 8]] "a=? and b=?").result = .error ⟨.positionalExhausted, "?", ⟨10, 11⟩⟩ ∧
      (resolveAndExpand (⟨∅, [.sequence [7, 8]]⟩ : Environment Nat) "a=? and b=?").result =
        .error ⟨.positionalExhausted, "?", ⟨10, 11⟩⟩) ∧
    (expand [.sequence [7, 8], .scalar 9, .scalar 5] "a=? and b=?").result =
        .ok ⟨"a=(?, ?) and b=?", [7, 8, 9]⟩ ∧
      (resolveAndExpand (⟨∅, [.sequence [7, 8], .scalar 9, .scalar 5]⟩ : Environment Nat)
        "a=? and b=?").result = .ok ⟨"a=(?, ?) and b=?", [7, 8, 9]⟩ := by
  have hc : Canonical (lex "a=? and b=?") := by
    unfold Canonical
    decide +kernel
  have hfew : (expand [.sequence [7, 8]] "a=? and b=?").result =
      .error ⟨.positionalExhausted, "?", ⟨10, 11⟩⟩ := by decide +kernel
  have hmany : (expand [.sequence [7, 8], .scalar 9, .scalar 5] "a=? and b=?").result =
      .ok ⟨"a=(?, ?) and b=?", [7, 8, 9]⟩ := by decide +kernel
  refine ⟨hc, ⟨hfew, ?_⟩, hmany, ?_⟩
  · rw [← expand_eq_resolveAndExpand_of_canonical hc, hfew]
  · rw [← expand_eq_resolveAndExpand_of_canonical hc, hmany]

end Placeholder
