import Placeholder.Proofs.Expansion
import Placeholder.Proofs.Resolution

/-!
Passes over tokens that have been resolved. Each of them succeeds, resolution changes nothing more, and after
one expansion no pass changes anything.
-/
namespace Placeholder

variable {α β : Type}

/-- The tokens are as resolution leaves them, plain text and canonical placeholders, with a binding for each
placeholder. -/
structure BoundTokens.Settled (bound : BoundTokens β) : Prop where
  canonical : bound.tokens.map Token.canonical = bound.tokens
  count : bound.tokens.countP Token.isImplicit = bound.bindings.length

def BoundTokens.scalars (bound : BoundTokens α) : BoundTokens (Binding α) :=
  ⟨bound.tokens, bound.bindings.map .scalar⟩

inductive Pass (α : Type)
  /-- Resolution with other names, and with further positions after the bindings found. -/
  | resolve (named : Std.TreeMap String (Binding α)) (extra : List (Binding α))
  /-- Expansion, after which each value is a binding of its own. -/
  | expand

namespace Pass

def run : Pass α → BoundTokens (Binding α) → Traced BindError (BoundTokens (Binding α))
  | .resolve named extra, bound => Token.resolve ⟨named, bound.bindings ++ extra⟩ bound.tokens
  | .expand, bound => do
    let expanded ← Token.expand bound.bindings bound.tokens
    return expanded.scalars

/-- One pass after the other, up to the first that fails. -/
def runAll : List (Pass α) → BoundTokens (Binding α) → Traced BindError (BoundTokens (Binding α))
  | [], bound => pure bound
  | pass :: passes, bound => do runAll passes (← pass.run bound)

def isExpand : Pass α → Bool
  | .resolve _ _ => false
  | .expand => true

end Pass

namespace Token

private theorem map_canonical_placeholders (count : Nat) (span : Span) :
    (placeholders count span).map canonical = placeholders count span := by
  have hother : ∀ text, (other text span).canonical = other text span := fun _ => rfl
  have himplicit : (implicit span).canonical = implicit span := rfl
  simp [placeholders, map_intersperse, hother, himplicit]

private theorem map_canonical_tokens {t : Token} (h : t.canonical = t) (binding : Binding α) :
    (binding.tokens t).map canonical = binding.tokens t := by
  cases binding with
  | scalar value => simp [Binding.tokens, h]
  | sequence values => exact map_canonical_placeholders values.length t.span

private theorem map_canonical_written {p : Token × Nat} (h : p.1.canonical = p.1) (bindings : List (Binding α)) :
    (written bindings p).map canonical = written bindings p := by
  unfold written
  split
  · cases bindings[p.2]? with
    | none => rfl
    | some binding => exact map_canonical_tokens h binding
  · simp [h]

end Token

namespace BoundTokens.Settled

theorem of_resolve {env : Environment α} {ts : List Token} {bound : BoundTokens (Binding α)}
    (h : (Token.resolve env ts).result = .ok bound) : bound.Settled := by
  have htokens := (Token.bound_of_resolve h).1
  constructor
  · rw [htokens, List.map_map]
    congr 1
    funext t
    simp
  · rw [htokens, Token.countP_isImplicit_map_canonical, Token.length_bindings_of_resolve h]

variable {bound : BoundTokens β}

theorem isCanonical (h : bound.Settled) : Canonical bound.tokens := by
  rw [← h.canonical]
  exact Token.canonical_map_canonical bound.tokens

theorem scalars {bound : BoundTokens α} (h : bound.Settled) : bound.scalars.Settled := by
  constructor
  · exact h.canonical
  · simpa [BoundTokens.scalars] using h.count

/-- Resolution finds the same bindings again, whatever the names, and does not look at what follows them. -/
theorem resolve {bound : BoundTokens (Binding α)} (h : bound.Settled)
    (named : Std.TreeMap String (Binding α)) (extra : List (Binding α)) :
    (Token.resolve ⟨named, bound.bindings ++ extra⟩ bound.tokens).result = .ok bound := by
  have hp : (⟨named, bound.bindings ++ extra⟩ : Environment α).positionals =
      [] ++ (bound.bindings ++ extra) := rfl
  have hr := Token.resolveFrom_of_canonical h.isCanonical hp h.count
  rw [h.canonical] at hr
  rw [Token.result_resolve]
  exact congrArg (Except.map Prod.fst) hr

/-- Expansion has a binding for each placeholder, and leaves a value for each. -/
theorem exists_expand {bound : BoundTokens (Binding α)} (h : bound.Settled) :
    ∃ expanded, (Token.expand bound.bindings bound.tokens).result = .ok expanded ∧ expanded.Settled := by
  have hle : bound.tokens.countP Token.isImplicit ≤ bound.bindings.length := Nat.le_of_eq h.count
  obtain ⟨expanded, hexpand⟩ := Token.expand_isOk_iff.mpr ⟨h.isCanonical, hle⟩
  obtain ⟨_, htokens, hcount⟩ := Token.bound_of_expand hexpand
  refine ⟨expanded, hexpand, ?_, hcount⟩
  have hcanonical : ∀ t ∈ bound.tokens, t.canonical = id t := by
    apply List.map_inj_left.mp
    rw [List.map_id, h.canonical]
  have hranked : ∀ p ∈ Token.ranked 0 bound.tokens, p.1.canonical = p.1 :=
    Token.forall_mem_ranked_iff.mpr hcanonical
  rw [htokens, List.map_flatMap]
  apply List.flatMap_congr
  intro p hp
  exact Token.map_canonical_written (hranked p hp) bound.bindings

theorem expand_scalars {bound : BoundTokens α} (h : bound.Settled) :
    (Token.expand bound.scalars.bindings bound.tokens).result = .ok bound := by
  rw [Token.result_expand, BoundTokens.scalars, Token.expandFrom_scalars h.isCanonical h.count]
  rfl

end BoundTokens.Settled

namespace Pass

private theorem result_run_expand {bound : BoundTokens (Binding α)} {expanded : BoundTokens α}
    (h : (Token.expand bound.bindings bound.tokens).result = .ok expanded) :
    ((expand : Pass α).run bound).result = .ok expanded.scalars := by
  rw [run, Traced.result_bind, h]
  rfl

theorem result_runAll_cons {pass : Pass α} {bound next : BoundTokens (Binding α)}
    (h : (pass.run bound).result = .ok next) (passes : List (Pass α)) :
    (runAll (pass :: passes) bound).result = (runAll passes next).result := by
  rw [runAll, Traced.result_bind, h]
  rfl

/-- No pass changes tokens that stand with a value for each placeholder. -/
theorem run_scalars {bound : BoundTokens α} (h : bound.Settled) (pass : Pass α) :
    (pass.run bound.scalars).result = .ok bound.scalars := by
  cases pass with
  | resolve named extra => exact h.scalars.resolve named extra
  | expand => exact result_run_expand h.expand_scalars

theorem runAll_scalars {bound : BoundTokens α} (h : bound.Settled) (passes : List (Pass α)) :
    (runAll passes bound.scalars).result = .ok bound.scalars := by
  induction passes with
  | nil => rfl
  | cons pass passes ih => rw [result_runAll_cons (run_scalars h pass), ih]

/-- Passes over resolved tokens succeed, and the first expansion among them is the last change. -/
theorem runAll_of_settled {bound : BoundTokens (Binding α)} (h : bound.Settled) {expanded : BoundTokens α}
    (hexpand : (Token.expand bound.bindings bound.tokens).result = .ok expanded)
    (hsettled : expanded.Settled) (passes : List (Pass α)) :
    (runAll passes bound).result = .ok (if passes.any isExpand then expanded.scalars else bound) := by
  induction passes with
  | nil => rfl
  | cons pass passes ih =>
    cases pass with
    | resolve named extra =>
      have hrun : ((resolve named extra).run bound).result = .ok bound := h.resolve named extra
      rw [result_runAll_cons hrun, ih]
      simp [isExpand]
    | expand =>
      rw [result_runAll_cons (result_run_expand hexpand), runAll_scalars hsettled]
      simp [isExpand]

end Pass

/-- Resolved tokens hold plain text and a placeholder for each binding. Resolution gives them back whatever
the names and the positions that follow; expansion succeeds, and what it gives is given back by both passes.
So every row of passes succeeds, and after the first expansion in it nothing changes. -/
theorem passes_settle_after_resolve {env : Environment α} {ts : List Token} {bound : BoundTokens (Binding α)}
    (h : (Token.resolve env ts).result = .ok bound) :
    (Canonical bound.tokens ∧ bound.tokens.countP Token.isImplicit = bound.bindings.length) ∧
    (∀ named extra, (Token.resolve ⟨named, bound.bindings ++ extra⟩ bound.tokens).result = .ok bound) ∧
    ∃ expanded, (Token.expand bound.bindings bound.tokens).result = .ok expanded ∧
      (Token.expand expanded.scalars.bindings expanded.scalars.tokens).result = .ok expanded ∧
      (∀ named, (Token.resolve ⟨named, expanded.scalars.bindings⟩ expanded.scalars.tokens).result =
        .ok expanded.scalars) ∧
      ∀ passes, (Pass.runAll passes bound).result =
        .ok (if passes.any Pass.isExpand then expanded.scalars else bound) := by
  have hsettled := BoundTokens.Settled.of_resolve h
  obtain ⟨expanded, hexpand, hexpanded⟩ := hsettled.exists_expand
  refine ⟨⟨hsettled.isCanonical, hsettled.count⟩, hsettled.resolve, expanded, hexpand, ?_, fun named => ?_, ?_⟩
  · exact hexpanded.expand_scalars
  · have hresolve := hexpanded.scalars.resolve named []
    rwa [List.append_nil] at hresolve
  · exact Pass.runAll_of_settled hsettled hexpand hexpanded

/-- Tokens that no query has: the text of the first is not its index, and the spans overlap. -/
theorem passes_settle_after_index :
    (Token.resolve (⟨∅, [.scalar 7, .sequence [8, 9]]⟩ : Environment Nat)
        [⟨.explicit, ":1", "+002", ⟨9, 3⟩⟩, ⟨.other, "?", ":x", ⟨4, 4⟩⟩, .implicit ⟨0, 9⟩]).result =
        .ok ⟨[.implicit ⟨9, 3⟩, ⟨.other, "?", ":x", ⟨4, 4⟩⟩, .implicit ⟨0, 9⟩],
          [.sequence [8, 9], .scalar 7]⟩ ∧
      ∀ passes, (Pass.runAll passes ⟨[.implicit ⟨9, 3⟩, ⟨.other, "?", ":x", ⟨4, 4⟩⟩, .implicit ⟨0, 9⟩],
          [.sequence [8, 9], .scalar (7 : Nat)]⟩).result =
        .ok (if passes.any Pass.isExpand then
            ⟨Token.placeholders 2 ⟨9, 3⟩ ++ [⟨.other, "?", ":x", ⟨4, 4⟩⟩, .implicit ⟨0, 9⟩],
              [.scalar 8, .scalar 9, .scalar 7]⟩
          else ⟨[.implicit ⟨9, 3⟩, ⟨.other, "?", ":x", ⟨4, 4⟩⟩, .implicit ⟨0, 9⟩],
            [.sequence [8, 9], .scalar 7]⟩) := by
  have h : (Token.resolve (⟨∅, [.scalar 7, .sequence [8, 9]]⟩ : Environment Nat)
      [⟨.explicit, ":1", "+002", ⟨9, 3⟩⟩, ⟨.other, "?", ":x", ⟨4, 4⟩⟩, .implicit ⟨0, 9⟩]).result =
      .ok ⟨[.implicit ⟨9, 3⟩, ⟨.other, "?", ":x", ⟨4, 4⟩⟩, .implicit ⟨0, 9⟩],
        [.sequence [8, 9], .scalar 7]⟩ := by decide +kernel
  have hvalues : (Token.expand [.sequence [8, 9], .scalar (7 : Nat)]
      [.implicit ⟨9, 3⟩, ⟨.other, "?", ":x", ⟨4, 4⟩⟩, .implicit ⟨0, 9⟩]).result =
      .ok ⟨Token.placeholders 2 ⟨9, 3⟩ ++ [⟨.other, "?", ":x", ⟨4, 4⟩⟩, .implicit ⟨0, 9⟩], [8, 9, 7]⟩ := by
    decide +kernel
  obtain ⟨_, _, expanded, hexpand, _, _, hruns⟩ := passes_settle_after_resolve h
  rw [hvalues] at hexpand
  cases hexpand
  exact ⟨h, hruns⟩

end Placeholder
