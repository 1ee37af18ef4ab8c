import Placeholder.Proofs.Rewriting

/-!
The passes without their state. What a pass does with a token depends on the token and its rank, the number
of placeholders before it, and on nothing that the pass has done before. So a pass is one rule for single
tokens, carried out in order up to the first token that cannot be bound.
-/
namespace Placeholder

variable {α β : Type}

namespace Token

/-- The tokens with their ranks, the numbers of placeholders before them, when `n` more stand before all. -/
def ranked (n : Nat) (ts : List Token) : List (Token × Nat) :=
  ts.mapIdx fun i t => (t, n + (ts.take i).countP isImplicit)

theorem ranked_nil (n : Nat) : ranked n [] = [] := rfl

theorem ranked_cons (n : Nat) (t : Token) (ts : List Token) :
    ranked n (t :: ts) = (t, n) :: ranked (if t.isImplicit then n + 1 else n) ts := by
  rw [ranked, List.mapIdx_cons, ranked]
  congr 2
  funext i u
  rw [List.take_succ_cons, List.countP_cons]
  congr 1
  split <;> omega

theorem ranked_append (n : Nat) (ts us : List Token) :
    ranked n (ts ++ us) = ranked n ts ++ ranked (n + ts.countP isImplicit) us := by
  induction ts generalizing n with
  | nil => rfl
  | cons t ts ih =>
    rw [List.cons_append, ranked_cons, ranked_cons, ih, List.countP_cons]
    congr 3
    split <;> omega

theorem map_fst_ranked (n : Nat) (ts : List Token) : (ranked n ts).map Prod.fst = ts := by
  induction ts generalizing n with
  | nil => rfl
  | cons t ts ih => rw [ranked_cons, List.map_cons, ih]

private theorem exists_of_ranked_eq_append {n : Nat} {ts : List Token} {ps qs : List (Token × Nat)}
    (h : ranked n ts = ps ++ qs) :
    ∃ us vs, ts = us ++ vs ∧ ranked n us = ps ∧ ranked (n + us.countP isImplicit) vs = qs := by
  have hlength : (ranked n (ts.take ps.length)).length = ps.length := by
    have hts : (ranked n ts).length = ts.length := by rw [← List.length_map Prod.fst, map_fst_ranked]
    rw [← List.length_map Prod.fst, map_fst_ranked, List.length_take, ← hts, h, List.length_append]
    omega
  have hcut := List.take_append_drop ps.length ts
  rw [← hcut, ranked_append] at h
  obtain ⟨hps, hqs⟩ := List.append_inj h hlength
  exact ⟨_, _, hcut.symm, hps, hqs⟩

theorem forall_mem_ranked_iff {P : Token → Prop} {n : Nat} {ts : List Token} :
    (∀ p ∈ ranked n ts, P p.1) ↔ ∀ t ∈ ts, P t := by
  rw [← List.forall_mem_map, map_fst_ranked]

theorem length_filter_ranked (p : Token → Bool) (n : Nat) (ts : List Token) :
    ((ranked n ts).filter fun q => p q.1).length = ts.countP p := by
  have hmap : ((ranked n ts).map Prod.fst).countP p = (ranked n ts).countP fun q => p q.1 := List.countP_map
  rw [← List.countP_eq_length_filter, ← hmap, map_fst_ranked]

/-- Every placeholder ranks below a bound just when the bound leaves room for all of them. -/
theorem rank_lt_iff {n bound : Nat} {ts : List Token} :
    (∀ p ∈ ranked n ts, p.1.isImplicit → p.2 < bound) ↔ ts.countP isImplicit ≤ bound - n := by
  induction ts generalizing n with
  | nil => simp [ranked_nil]
  | cons t ts ih =>
    rw [ranked_cons, List.forall_mem_cons, ih, List.countP_cons]
    cases ht : t.isImplicit with
    | true =>
      simp only [if_true, true_imp_iff]
      omega
    | false =>
      simp only [Bool.false_eq_true, if_false, false_imp_iff, true_and]
      omega

end Token

/-- What a pass puts in place of a token of a given rank, or why the token cannot be bound. Plain text is
kept as it is. -/
structure Rule (β : Type) where
  put : Nat → Token → Except BindError.Cause (BoundTokens β)
  put_other : ∀ n t, t.reference? = none → put n t = .ok ⟨[t], []⟩

namespace Rule

/-- Puts everything together in order, up to the first token that cannot be bound. -/
def run (rule : Rule β) : List (Token × Nat) → Except BindError (BoundTokens β)
  | [] => .ok ⟨[], []⟩
  | (t, n) :: ps =>
    match rule.put n t with
    | .ok bound => (rule.run ps).map (.prepend bound.tokens bound.bindings)
    | .error cause => .error (.ofToken cause t)

variable {rule : Rule β} {t : Token} {n : Nat} {ps : List (Token × Nat)}

theorem run_cons_of_ok {bound : BoundTokens β} (h : rule.put n t = .ok bound) :
    rule.run ((t, n) :: ps) = (rule.run ps).map (.prepend bound.tokens bound.bindings) := by
  rw [run, h]

theorem run_cons_of_error {cause : BindError.Cause} (h : rule.put n t = .error cause) :
    rule.run ((t, n) :: ps) = .error (.ofToken cause t) := by
  rw [run, h]

/-- What a run gives is put together from what the rule gives for each token. -/
theorem run_ok_induction {motive : ∀ ps bound, rule.run ps = .ok bound → Prop}
    (nil : motive [] ⟨[], []⟩ rfl)
    (cons : ∀ t n ps one rest (ht : rule.put n t = .ok one) (hps : rule.run ps = .ok rest),
      motive ps rest hps →
        motive ((t, n) :: ps) (rest.prepend one.tokens one.bindings) (by rw [run_cons_of_ok ht, hps]; rfl))
    {bound : BoundTokens β} (h : rule.run ps = .ok bound) : motive ps bound h := by
  induction ps generalizing bound with
  | nil =>
    cases h
    exact nil
  | cons p ps ih =>
    obtain ⟨t, n⟩ := p
    cases hp : rule.put n t with
    | error cause =>
      rw [run_cons_of_error hp] at h
      cases h
    | ok one =>
      have hmap := h
      rw [run_cons_of_ok hp] at hmap
      obtain ⟨rest, hrest, rfl⟩ := map_eq_ok_iff.mp hmap
      exact cons t n ps one rest hp hrest (ih hrest)

/-- A run succeeds just when the rule does for each token. -/
theorem run_isOk_iff :
    (∃ bound, rule.run ps = .ok bound) ↔ ∀ p ∈ ps, ∀ cause, rule.put p.2 p.1 ≠ .error cause := by
  induction ps with
  | nil => simp [run]
  | cons p ps ih =>
    obtain ⟨t, n⟩ := p
    rw [List.forall_mem_cons, ← ih]
    cases hp : rule.put n t with
    | error cause => simp [run_cons_of_error hp]
    | ok one =>
      rw [run_cons_of_ok hp]
      cases rule.run ps <;> simp [Except.map]

/-- A run fails at the leftmost token for which the rule does. -/
theorem run_eq_error_iff {e : BindError} :
    rule.run ps = .error e ↔ ∃ before t n after cause, ps = before ++ (t, n) :: after ∧
      (∀ p ∈ before, ∀ cause, rule.put p.2 p.1 ≠ .error cause) ∧ rule.put n t = .error cause ∧
      e = .ofToken cause t := by
  constructor
  · intro h
    induction ps with
    | nil => cases h
    | cons p ps ih =>
      obtain ⟨t, n⟩ := p
      cases hp : rule.put n t with
      | error cause =>
        rw [run_cons_of_error hp] at h
        cases h
        exact ⟨[], t, n, ps, cause, rfl, List.forall_mem_nil _, hp, rfl⟩
      | ok one =>
        rw [run_cons_of_ok hp] at h
        obtain ⟨before, u, m, after, cause, rfl, hbefore, hu, he⟩ := ih (map_eq_error_iff.mp h)
        refine ⟨(t, n) :: before, u, m, after, cause, rfl, ?_, hu, he⟩
        exact List.forall_mem_cons.mpr ⟨by simp [hp], hbefore⟩
  · rintro ⟨before, t, n, after, cause, rfl, hbefore, ht, rfl⟩
    induction before with
    | nil => exact run_cons_of_error ht
    | cons p before ih =>
      obtain ⟨u, m⟩ := p
      obtain ⟨hu, hbefore⟩ := List.forall_mem_cons.mp hbefore
      cases hp : rule.put m u with
      | error cause => exact absurd hp (hu cause)
      | ok one =>
        rw [List.cons_append, run_cons_of_ok hp, ih hbefore]
        rfl

theorem isParameter_of_put_eq_error {cause : BindError.Cause} (h : rule.put n t = .error cause) :
    t.isParameter := by
  rw [Token.isParameter_eq_isSome_reference?, Option.isSome_iff_ne_none]
  intro hr
  rw [rule.put_other n t hr] at h
  cases h

/-- A run over tokens that fails points at one of them. It fails in the same way without the tokens after
that one, and it does not fail without that one. -/
theorem exists_fault {ts : List Token} {e : BindError} (h : rule.run (Token.ranked 0 ts) = .error e) :
    ∃ before t after, ts = before ++ t :: after ∧ t.isParameter ∧ e.text = t.text ∧ e.span = t.span ∧
      (∀ us, us <+: before → ∃ bound, rule.run (Token.ranked 0 us) = .ok bound) ∧
      rule.run (Token.ranked 0 (before ++ [t])) = .error e := by
  obtain ⟨ps, t, n, qs, cause, hranked, hclean, ht, rfl⟩ := run_eq_error_iff.mp h
  obtain ⟨before, vs, rfl, hbefore, hvs⟩ := Token.exists_of_ranked_eq_append hranked
  cases vs with
  | nil => cases hvs
  | cons u after =>
    rw [Token.ranked_cons] at hvs
    obtain ⟨hu, _⟩ := List.cons.inj hvs
    cases hu
    refine ⟨before, t, after, rfl, isParameter_of_put_eq_error ht, rfl, rfl, ?_, ?_⟩
    · rintro us ⟨rest, rfl⟩
      rw [Token.ranked_append] at hbefore
      subst hbefore
      exact run_isOk_iff.mpr fun p hp => hclean p (List.mem_append_left _ hp)
    · rw [Token.ranked_append, hbefore]
      exact run_eq_error_iff.mpr ⟨ps, t, _, [], cause, rfl, hclean, ht, rfl⟩

end Rule

def Environment.resolution (env : Environment α) : Rule (Binding α) where
  put n t :=
    match t.reference? with
    | none => .ok ⟨[t], []⟩
    | some r => (env.referent n r).map fun binding => ⟨[.implicit t.span], [binding]⟩
  put_other n t h := by rw [h]

def Binding.expansion (bindings : List (Binding α)) : Rule α where
  put n t :=
    match t.reference? with
    | none => .ok ⟨[t], []⟩
    | some .next =>
      (bindings[n]?).elim (.error .positionalExhausted) fun binding => .ok ⟨binding.tokens t, binding.values⟩
    | some (.index _) => .error .explicitNotAllowed
    | some (.name _) => .error .namedNotAllowed
  put_other n t h := by rw [h]

namespace Environment

variable (env : Environment α) (n : Nat) {t : Token}

theorem put_resolution_of_reference {r : Reference} (h : t.reference? = some r) :
    env.resolution.put n t = (env.referent n r).map fun binding => ⟨[.implicit t.span], [binding]⟩ := by
  rw [resolution]
  simp only [h]

end Environment

namespace Binding

variable (bindings : List (Binding α)) (n : Nat) {t : Token}

theorem put_expansion_of_next (h : t.reference? = some .next) :
    (expansion bindings).put n t = (bindings[n]?).elim (.error .positionalExhausted)
      fun binding => .ok ⟨binding.tokens t, binding.values⟩ := by
  rw [expansion]
  simp only [h]

theorem put_expansion_of_index {digits : String} (h : t.reference? = some (.index digits)) :
    (expansion bindings).put n t = .error .explicitNotAllowed := by
  rw [expansion]
  simp only [h]

theorem put_expansion_of_name {name : String} (h : t.reference? = some (.name name)) :
    (expansion bindings).put n t = .error .namedNotAllowed := by
  rw [expansion]
  simp only [h]

end Binding

namespace Token

theorem isImplicit_of_other {t : Token} (h : t.reference? = none) : t.isImplicit = false := by
  rw [Bool.eq_false_iff, ne_eq, isImplicit_iff, h]
  exact nofun

theorem isImplicit_of_reference {r : Reference} {t : Token} (h : t.reference? = some r) :
    t.isImplicit = decide (r = .next) := by
  rw [Bool.eq_iff_iff, isImplicit_iff, h, Option.some_inj, decide_eq_true_iff]

/-- The cursor of resolution is the rank of the token that it stands at. -/
theorem result_resolveFrom_eq_run (env : Environment α) (n : Nat) (ts : List Token) :
    (resolveFrom env n ts).result =
      (env.resolution.run (ranked n ts)).map fun bound => (bound, n + ts.countP isImplicit) := by
  induction ts generalizing n with
  | nil => rfl
  | cons t ts ih =>
    rw [ranked_cons, List.countP_cons]
    cases ht : t.reference? with
    | none =>
      rw [result_resolveFrom_other env n ts ht, isImplicit_of_other ht,
        Rule.run_cons_of_ok (env.resolution.put_other n t ht)]
      simp only [Bool.false_eq_true, if_false, Nat.add_zero, ih]
      cases env.resolution.run (ranked n ts) <;> rfl
    | some r =>
      have hput := env.put_resolution_of_reference n ht
      cases hr : env.referent n r with
      | error cause =>
        rw [hr] at hput
        rw [result_resolveFrom_error env n ts ht hr, Rule.run_cons_of_error hput]
        rfl
      | ok binding =>
        rw [hr] at hput
        rw [result_resolveFrom_ok env n ts ht hr, Rule.run_cons_of_ok hput, ih, isImplicit_of_reference ht]
        by_cases hn : r = .next
        · simp only [hn, if_true, decide_true, Nat.add_assoc, Nat.add_comm 1]
          cases env.resolution.run (ranked (n + 1) ts) <;> rfl
        · simp only [hn, if_false, decide_false, Bool.false_eq_true, Nat.add_zero]
          cases env.resolution.run (ranked n ts) <;> rfl

theorem result_resolve_eq_run (env : Environment α) (ts : List Token) :
    (resolve env ts).result = env.resolution.run (ranked 0 ts) := by
  rw [result_resolve, result_resolveFrom_eq_run]
  cases env.resolution.run (ranked 0 ts) <;> rfl

/-- The bindings that are left to expansion are those from the rank of the token on. -/
theorem result_expandFrom_eq_run (bindings : List (Binding α)) (n : Nat) (ts : List Token) :
    (expandFrom (bindings.drop n) ts).result.map Prod.fst =
      (Binding.expansion bindings).run (ranked n ts) := by
  induction ts generalizing n with
  | nil =>
    rw [result_expandFrom_nil]
    rfl
  | cons t ts ih =>
    rw [ranked_cons]
    cases ht : t.reference? with
    | none =>
      rw [result_expandFrom_other _ ts ht, isImplicit_of_other ht,
        Rule.run_cons_of_ok ((Binding.expansion bindings).put_other n t ht)]
      simp only [Bool.false_eq_true, if_false, ← ih]
      cases (expandFrom (bindings.drop n) ts).result <;> rfl
    | some r =>
      cases r with
      | index digits =>
        rw [result_expandFrom_index _ ts ht,
          Rule.run_cons_of_error (Binding.put_expansion_of_index bindings n ht)]
        rfl
      | name name =>
        rw [result_expandFrom_name _ ts ht,
          Rule.run_cons_of_error (Binding.put_expansion_of_name bindings n ht)]
        rfl
      | next =>
        have hput := Binding.put_expansion_of_next bindings n ht
        have hi : t.isImplicit := isImplicit_iff.mpr ht
        cases hb : bindings[n]? with
        | none =>
          rw [hb] at hput
          rw [List.drop_eq_nil_of_le (List.getElem?_eq_none_iff.mp hb), result_expandFrom_exhausted ts ht,
            Rule.run_cons_of_error hput]
          rfl
        | some binding =>
          rw [hb] at hput
          obtain ⟨hn, hbn⟩ := List.getElem?_eq_some_iff.mp hb
          rw [List.drop_eq_getElem_cons hn, hbn, result_expandFrom_binding _ ts binding ht,
            Rule.run_cons_of_ok hput, if_pos hi, ← ih]
          cases (expandFrom (bindings.drop (n + 1)) ts).result <;> rfl

theorem result_expand_eq_run (bindings : List (Binding α)) (ts : List Token) :
    (expand bindings ts).result = (Binding.expansion bindings).run (ranked 0 ts) := by
  rw [result_expand, ← result_expandFrom_eq_run, List.drop_zero]

end Token
end Placeholder
