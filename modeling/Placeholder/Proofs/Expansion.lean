import Placeholder.Proofs.Ranks
import Mathlib.Control.Monad.Basic

/-!
What expansion does with tokens of any origin, lexed or not: when it succeeds, what it writes for each token,
and which token is reported when it does not.
-/
namespace Placeholder

variable {α : Type}

namespace Token

/-- Why a token cannot be expanded when so many placeholders stand before it. -/
inductive Unexpandable (bindings : List (Binding α)) (before : Nat) (t : Token) : BindError.Cause → Prop
  | placeholder : t.kind = .implicit → bindings.length ≤ before →
    Unexpandable bindings before t .positionalExhausted
  | index : t.kind = .explicit → Unexpandable bindings before t .explicitNotAllowed
  | name : t.kind.isNamed → Unexpandable bindings before t .namedNotAllowed

/-- What is written for a token of a rank: for a placeholder what the binding at its rank asks for, and
other tokens as they are. -/
def written (bindings : List (Binding α)) (p : Token × Nat) : List Token :=
  if p.1.isImplicit then (bindings[p.2]?).elim [] fun binding => binding.tokens p.1 else [p.1]

def taken (bindings : List (Binding α)) (p : Token × Nat) : List α :=
  if p.1.isImplicit then (bindings[p.2]?).elim [] Binding.values else []

section Expansion

variable {bindings : List (Binding α)} {before : Nat} {t : Token}

private theorem of_put_expansion_eq_ok {one : BoundTokens α}
    (h : (Binding.expansion bindings).put before t = .ok one) :
    t.kind = .other ∧ one = ⟨[t], []⟩ ∨
      t.kind = .implicit ∧ ∃ binding, bindings[before]? = some binding ∧
        one = ⟨binding.tokens t, binding.values⟩ := by
  cases hr : t.reference? with
  | none =>
    rw [(Binding.expansion bindings).put_other before t hr] at h
    cases h
    exact Or.inl ⟨kind_eq_other_iff.mpr hr, rfl⟩
  | some r =>
    cases r with
    | index digits =>
      rw [Binding.put_expansion_of_index bindings before hr] at h
      cases h
    | name name =>
      rw [Binding.put_expansion_of_name bindings before hr] at h
      cases h
    | next =>
      rw [Binding.put_expansion_of_next bindings before hr] at h
      have hk : t.kind = .implicit := beq_iff_eq.mp (isImplicit_iff.mpr hr)
      cases hb : bindings[before]? with
      | none =>
        rw [hb] at h
        cases h
      | some binding =>
        rw [hb] at h
        cases h
        exact Or.inr ⟨hk, binding, rfl, rfl⟩

theorem put_expansion_eq_error_iff {cause : BindError.Cause} :
    (Binding.expansion bindings).put before t = .error cause ↔ t.Unexpandable bindings before cause := by
  constructor
  · intro h
    cases hk : t.kind with
    | other =>
      rw [(Binding.expansion bindings).put_other before t (kind_eq_other_iff.mp hk)] at h
      cases h
    | explicit =>
      rw [Binding.put_expansion_of_index bindings before (reference?_of_explicit hk)] at h
      cases h
      exact .index hk
    | named | percentNamed =>
      have hn : t.kind.isNamed := by rw [hk]; rfl
      rw [Binding.put_expansion_of_name bindings before (reference?_of_isNamed hn)] at h
      cases h
      exact .name hn
    | implicit =>
      rw [Binding.put_expansion_of_next bindings before (reference?_of_implicit hk)] at h
      cases hb : bindings[before]? with
      | none =>
        rw [hb] at h
        cases h
        exact .placeholder hk (List.getElem?_eq_none_iff.mp hb)
      | some binding =>
        rw [hb] at h
        cases h
  · intro h
    cases h with
    | placeholder hk hlen =>
      rw [Binding.put_expansion_of_next bindings before (reference?_of_implicit hk),
        List.getElem?_eq_none hlen]
      rfl
    | index hk => exact Binding.put_expansion_of_index bindings before (reference?_of_explicit hk)
    | name hn => exact Binding.put_expansion_of_name bindings before (reference?_of_isNamed hn)

theorem not_unexpandable_iff : (∀ cause, ¬ t.Unexpandable bindings before cause) ↔
    (t.kind = .other ∨ t.kind = .implicit) ∧ (t.isImplicit → before < bindings.length) := by
  constructor
  · intro h
    constructor
    · cases hk : t.kind with
      | other => exact Or.inl rfl
      | implicit => exact Or.inr rfl
      | explicit => exact absurd (.index hk) (h _)
      | named | percentNamed => exact absurd (.name (by rw [hk]; rfl)) (h _)
    · intro hi
      exact Nat.lt_of_not_le fun hlen => h _ (.placeholder (beq_iff_eq.mp hi) hlen)
  · rintro ⟨hk, hplace⟩ cause hu
    cases hu with
    | placeholder hk hlen => exact absurd (hplace (beq_iff_eq.mpr hk)) (Nat.not_lt.mpr hlen)
    | index hk' =>
      rw [hk'] at hk
      rcases hk with hk | hk <;> cases hk
    | name hn =>
      rcases hk with hk | hk <;> rw [hk] at hn <;> cases hn

private theorem countP_isImplicit_tokens (hk : t.kind = .implicit) (binding : Binding α) :
    (binding.tokens t).countP isImplicit = binding.values.length := by
  cases binding with
  | scalar value => exact List.countP_cons_of_pos (beq_iff_eq.mpr hk)
  | sequence values =>
    have hother : ∀ text, (other text t.span).isImplicit = false := fun _ => rfl
    have himplicit : (implicit t.span).isImplicit = true := rfl
    rw [Binding.tokens, placeholders, List.countP_append, List.countP_cons, countP_intersperse (hother _),
      List.countP_replicate, List.countP_singleton, hother, hother, himplicit]
    rfl

private theorem bound_of_expansion_run {ps : List (Token × Nat)} {bound : BoundTokens α}
    (h : (Binding.expansion bindings).run ps = .ok bound) :
    bound.tokens = ps.flatMap (written bindings) ∧ bound.bindings = ps.flatMap (taken bindings) ∧
      bound.tokens.countP isImplicit = bound.bindings.length := by
  induction h using Rule.run_ok_induction with
  | nil => exact ⟨rfl, rfl, rfl⟩
  | cons t n ps one rest hput _ ih =>
    obtain ⟨htokens, hvalues, hcount⟩ := ih
    have hone : one.tokens = written bindings (t, n) ∧ one.bindings = taken bindings (t, n) ∧
        one.tokens.countP isImplicit = one.bindings.length := by
      rcases of_put_expansion_eq_ok hput with ⟨hk, rfl⟩ | ⟨hk, binding, hb, rfl⟩
      · have hi : t.isImplicit = false := by rw [isImplicit, hk]; rfl
        rw [written, taken, hi]
        exact ⟨rfl, rfl, List.countP_cons_of_neg (by rw [hi]; decide)⟩
      · have hi : t.isImplicit := beq_iff_eq.mpr hk
        rw [written, taken, if_pos hi, if_pos hi, hb]
        exact ⟨rfl, rfl, countP_isImplicit_tokens hk binding⟩
    obtain ⟨htokens', hvalues', hcount'⟩ := hone
    rw [List.flatMap_cons, List.flatMap_cons, ← htokens, ← hvalues, ← htokens', ← hvalues']
    refine ⟨rfl, rfl, ?_⟩
    rw [BoundTokens.prepend, List.countP_append, List.length_append, hcount, hcount']

private theorem flatMap_taken_ranked (bindings : List (Binding α)) (n : Nat) (ts : List Token) :
    (ranked n ts).flatMap (taken bindings) =
      ((bindings.drop n).take (ts.countP isImplicit)).flatMap Binding.values := by
  induction ts generalizing n with
  | nil => rfl
  | cons t ts ih =>
    rw [ranked_cons, List.flatMap_cons, List.countP_cons, ih, taken]
    cases hi : t.isImplicit with
    | false => rfl
    | true =>
      rw [if_pos rfl, if_pos rfl, if_pos rfl]
      cases hb : bindings[n]? with
      | none =>
        have hlen := List.getElem?_eq_none_iff.mp hb
        rw [List.drop_eq_nil_of_le hlen, List.drop_eq_nil_of_le (Nat.le_succ_of_le hlen), List.take_nil,
          List.take_nil]
        rfl
      | some binding =>
        obtain ⟨hn, rfl⟩ := List.getElem?_eq_some_iff.mp hb
        rw [List.drop_eq_getElem_cons hn, List.take_succ_cons, List.flatMap_cons]
        rfl

theorem expand_isOk_iff {ts : List Token} : (∃ bound, (expand bindings ts).result = .ok bound) ↔
    Canonical ts ∧ ts.countP isImplicit ≤ bindings.length := by
  rw [result_expand_eq_run, Rule.run_isOk_iff]
  simp only [ne_eq, put_expansion_eq_error_iff, not_unexpandable_iff, forall_and, rank_lt_iff,
    Nat.sub_zero]
  exact and_congr (forall_mem_ranked_iff (P := fun t => t.kind = .other ∨ t.kind = .implicit)) Iff.rfl

theorem bound_of_expand {ts : List Token} {bound : BoundTokens α}
    (h : (expand bindings ts).result = .ok bound) :
    bound.bindings = (bindings.take (ts.countP isImplicit)).flatMap Binding.values ∧
      bound.tokens = (ranked 0 ts).flatMap (written bindings) ∧
      bound.tokens.countP isImplicit = bound.bindings.length := by
  rw [result_expand_eq_run] at h
  obtain ⟨htokens, hvalues, hcount⟩ := bound_of_expansion_run h
  rw [flatMap_taken_ranked, List.drop_zero] at hvalues
  exact ⟨hvalues, htokens, hcount⟩

theorem expand_eq_error_iff {ts : List Token} {e : BindError} : (expand bindings ts).result = .error e ↔
    ∃ before t rank after cause, ranked 0 ts = before ++ (t, rank) :: after ∧
      (∀ p ∈ before, ∀ cause, ¬ p.1.Unexpandable bindings p.2 cause) ∧
      t.Unexpandable bindings rank cause ∧ e = .ofToken cause t := by
  rw [result_expand_eq_run, Rule.run_eq_error_iff]
  simp only [ne_eq, put_expansion_eq_error_iff]

end Expansion

/-- Expansion succeeds just when every parameter is a placeholder and there are bindings for all of them.
Then each token is kept or gives way to its list, and the values are those of the bindings that are taken,
a placeholder for each. Otherwise the leftmost token that cannot be expanded is reported. -/
theorem expand_determined_by_rank (bindings : List (Binding α)) (ts : List Token) :
    ((∃ bound, (expand bindings ts).result = .ok bound) ↔
      Canonical ts ∧ ts.countP isImplicit ≤ bindings.length) ∧
    (∀ bound, (expand bindings ts).result = .ok bound →
      bound.bindings = (bindings.take (ts.countP isImplicit)).flatMap Binding.values ∧
      bound.tokens = (ranked 0 ts).flatMap (written bindings) ∧
      bound.tokens.countP isImplicit = bound.bindings.length) ∧
    ∀ e, (expand bindings ts).result = .error e ↔
      ∃ before t rank after cause, ranked 0 ts = before ++ (t, rank) :: after ∧
        (∀ p ∈ before, ∀ cause, ¬ p.1.Unexpandable bindings p.2 cause) ∧
        t.Unexpandable bindings rank cause ∧ e = .ofToken cause t := by
  refine ⟨expand_isOk_iff, fun bound h => ?_, fun e => ?_⟩
  · exact bound_of_expand h
  · exact expand_eq_error_iff

/-- An empty list takes a placeholder away, and the binding left over is not used. -/
theorem expand_to_empty_list :
    (expand [.sequence [], .sequence [7, 8], .scalar 9]
        [.implicit ⟨3, 4⟩, .other "+" ⟨1, 0⟩, .implicit ⟨6, 7⟩]).result =
        .ok ⟨[.other "(" ⟨3, 4⟩, .other ")" ⟨3, 4⟩, .other "+" ⟨1, 0⟩, .other "(" ⟨6, 7⟩, .implicit ⟨6, 7⟩,
          .other ", " ⟨6, 7⟩, .implicit ⟨6, 7⟩, .other ")" ⟨6, 7⟩], [7, 8]⟩ ∧
      [7, 8] = ([.sequence [], .sequence [7, 8]] : List (Binding Nat)).flatMap Binding.values := by
  have hok : (expand [.sequence [], .sequence [7, 8], .scalar 9]
      [.implicit ⟨3, 4⟩, .other "+" ⟨1, 0⟩, .implicit ⟨6, 7⟩]).result =
      .ok ⟨[.other "(" ⟨3, 4⟩, .other ")" ⟨3, 4⟩, .other "+" ⟨1, 0⟩, .other "(" ⟨6, 7⟩, .implicit ⟨6, 7⟩,
        .other ", " ⟨6, 7⟩, .implicit ⟨6, 7⟩, .other ")" ⟨6, 7⟩], [7, 8]⟩ := by decide +kernel
  exact ⟨hok, ((expand_determined_by_rank _ _).2.1 _ hok).1⟩

end Token
end Placeholder
