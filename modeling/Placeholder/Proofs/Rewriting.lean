import Placeholder.Proofs.Passes

/-!
The passes on tokens. Resolution leaves a placeholder for every parameter; tokens whose parameters are
placeholders already are expanded whenever there are enough bindings, and stay as they are when these are
scalars.
-/
namespace Placeholder

variable {α β : Type}

/-- Every parameter among the tokens is a placeholder. -/
def Canonical (ts : List Token) : Prop :=
  ∀ t ∈ ts, t.kind = .other ∨ t.kind = .implicit

def Token.respan (f : Span → Span) (t : Token) : Token :=
  { t with span := f t.span }

def BoundTokens.respan (f : Span → Span) (bound : BoundTokens β) : BoundTokens β :=
  ⟨bound.tokens.map (.respan f), bound.bindings⟩

def BindError.respan (f : Span → Span) (e : BindError) : BindError :=
  { e with span := f e.span }

private theorem BoundTokens.respan_prepend (f : Span → Span) (tokens : List Token) (bindings : List β)
    (bound : BoundTokens β) : (bound.prepend tokens bindings).respan f =
      (bound.respan f).prepend (tokens.map (.respan f)) bindings := by
  simp only [prepend, respan, List.map_append]

theorem intersperse_cons_eq (separator a : α) (l : List α) :
    (a :: l).intersperse separator = a :: l.flatMap fun b => [separator, b] := by
  induction l generalizing a with
  | nil => rfl
  | cons b l ih =>
    rw [List.intersperse_cons_cons, ih, List.flatMap_cons]
    rfl

theorem map_intersperse (f : α → β) (separator : α) (l : List α) :
    (l.intersperse separator).map f = (l.map f).intersperse (f separator) := by
  cases l with
  | nil => rfl
  | cons a l =>
    rw [intersperse_cons_eq, List.map_cons, List.map_cons, intersperse_cons_eq, List.map_flatMap,
      List.flatMap_map]
    rfl

theorem countP_intersperse {p : α → Bool} {separator : α} (h : p separator = false) (l : List α) :
    (l.intersperse separator).countP p = l.countP p := by
  cases l with
  | nil => rfl
  | cons a l =>
    have hrest : (l.flatMap fun b => [separator, b]).countP p = l.countP p := by
      induction l with
      | nil => rfl
      | cons b l ih =>
        rw [List.flatMap_cons, List.cons_append, List.singleton_append,
          List.countP_cons_of_neg (by rw [h]; decide), List.countP_cons, List.countP_cons, ih]
    rw [intersperse_cons_eq, List.countP_cons, List.countP_cons, hrest]

namespace Token

theorem canonical_other {t : Token} (h : t.reference? = none) : t.canonical = t := by
  rw [canonical, isParameter_eq_isSome_reference?, h]
  rfl

theorem canonical_parameter {t : Token} {r : Reference} (h : t.reference? = some r) :
    t.canonical = .implicit t.span := by
  rw [canonical, isParameter_eq_isSome_reference?, h]
  rfl

@[simp] theorem canonical_canonical (t : Token) : t.canonical.canonical = t.canonical := by
  by_cases h : t.isParameter
  · have hc : t.canonical = .implicit t.span := by simp [canonical, h]
    rw [hc]
    rfl
  · have hc : t.canonical = t := by simp [canonical, h]
    rw [hc, hc]

theorem kind_canonical (t : Token) :
    t.canonical.kind = if t.isParameter then .implicit else .other := by
  cases h : t.isParameter with
  | false =>
    have hr := reference?_eq_none_iff.mpr h
    rw [canonical_other hr]
    exact kind_eq_other_iff.mpr hr
  | true =>
    rw [canonical, if_pos h]
    rfl

theorem canonical_map_canonical (ts : List Token) : Canonical (ts.map canonical) := by
  intro t ht
  obtain ⟨t, _, rfl⟩ := List.mem_map.mp ht
  rw [kind_canonical]
  cases t.isParameter
  · exact Or.inl rfl
  · exact Or.inr rfl

theorem countP_isImplicit_map_canonical (ts : List Token) :
    (ts.map canonical).countP isImplicit = ts.countP isParameter := by
  rw [List.countP_map]
  congr 1
  funext t
  rw [Function.comp_apply, isImplicit, kind_canonical]
  cases t.isParameter <;> rfl

/-- The first of canonical tokens is plain text or a placeholder. -/
theorem canonical_cons {t : Token} {ts : List Token} (h : Canonical (t :: ts)) :
    Canonical ts ∧
      (t.reference? = none ∧ (t :: ts).countP isImplicit = ts.countP isImplicit ∨
        t.reference? = some .next ∧ (t :: ts).countP isImplicit = ts.countP isImplicit + 1) := by
  refine ⟨fun t' ht' => h t' (List.mem_cons_of_mem t ht'), ?_⟩
  rcases h t List.mem_cons_self with ht | ht
  · exact Or.inl ⟨kind_eq_other_iff.mp ht, List.countP_cons_of_neg (by rw [isImplicit, ht]; decide)⟩
  · have himp : t.isImplicit := by rw [isImplicit, ht]; rfl
    exact Or.inr ⟨isImplicit_iff.mp himp, List.countP_cons_of_pos himp⟩

/-- Placeholders take the positional bindings one by one, and leave those that are over. -/
theorem resolveFrom_of_canonical {env : Environment α} {ts : List Token} (hc : Canonical ts)
    {taken left extra : List (Binding α)} (hp : env.positionals = taken ++ (left ++ extra))
    (hn : ts.countP isImplicit = left.length) :
    (resolveFrom env taken.length ts).result = .ok (⟨ts.map canonical, left⟩, taken.length + left.length) := by
  induction ts generalizing taken left with
  | nil =>
    rw [List.eq_nil_of_length_eq_zero hn.symm]
    rfl
  | cons t ts ih =>
    obtain ⟨hts, ⟨ht, hcount⟩ | ⟨ht, hcount⟩⟩ := canonical_cons hc
    · rw [result_resolveFrom_other env _ ts ht, ih hts hp (hcount.symm.trans hn), List.map_cons,
        canonical_other ht]
      rfl
    · obtain ⟨binding, left, rfl⟩ := List.exists_cons_of_length_eq_add_one (hn.symm.trans hcount)
      have hb : env.referent taken.length .next = .ok binding := by
        rw [Environment.referent, hp, List.getElem?_append_right (Nat.le_refl _), Nat.sub_self]
        rfl
      have hp' : env.positionals = (taken ++ [binding]) ++ (left ++ extra) := by
        rw [hp, List.append_assoc]
        rfl
      have hr := ih hts hp' (Nat.succ.inj (hcount.symm.trans hn))
      rw [List.length_append, List.length_singleton] at hr
      rw [result_resolveFrom_ok env _ ts ht hb, if_pos rfl, hr, List.map_cons, canonical_parameter ht,
        List.length_cons, Nat.add_right_comm, Nat.add_assoc]
      rfl

/-- With a scalar for each placeholder expansion changes nothing. -/
theorem expandFrom_scalars {ts : List Token} (hc : Canonical ts) {values : List α}
    (hn : ts.countP isImplicit = values.length) :
    (expandFrom (values.map .scalar) ts).result = .ok (⟨ts, values⟩, 0) := by
  induction ts generalizing values with
  | nil =>
    rw [List.eq_nil_of_length_eq_zero hn.symm]
    rfl
  | cons t ts ih =>
    obtain ⟨hts, ⟨ht, hcount⟩ | ⟨ht, hcount⟩⟩ := canonical_cons hc
    · rw [result_expandFrom_other _ ts ht, ih hts (hcount.symm.trans hn)]
      rfl
    · obtain ⟨value, values, rfl⟩ := List.exists_cons_of_length_eq_add_one (hn.symm.trans hcount)
      rw [List.map_cons, result_expandFrom_binding _ ts (.scalar value) ht,
        ih hts (Nat.succ.inj (hcount.symm.trans hn))]
      rfl

private theorem map_respan_placeholders (f : Span → Span) (count : Nat) (span : Span) :
    (placeholders count span).map (respan f) = placeholders count (f span) := by
  simp only [placeholders, List.map_append, List.map_cons, List.map_nil, map_intersperse,
    List.map_replicate]
  rfl

private theorem map_respan_tokens (f : Span → Span) (t : Token) (binding : Binding α) :
    (binding.tokens t).map (respan f) = binding.tokens (t.respan f) := by
  cases binding with
  | scalar value => rfl
  | sequence values => exact map_respan_placeholders f values.length t.span

/-- Expansion carries the spans of the tokens along and does not look at them. -/
theorem result_expandFrom_respan (f : Span → Span) (left : List (Binding α)) (ts : List Token) :
    (expandFrom left (ts.map (respan f))).result =
      ((expandFrom left ts).result.map (Prod.map (BoundTokens.respan f) id)).mapError (BindError.respan f) := by
  induction ts generalizing left with
  | nil => rw [List.map_nil, result_expandFrom_nil]; rfl
  | cons t ts ih =>
    have hr : (t.respan f).reference? = t.reference? := rfl
    rw [List.map_cons]
    cases ht : t.reference? with
    | none =>
      rw [ht] at hr
      rw [result_expandFrom_other _ _ hr, result_expandFrom_other _ _ ht, ih]
      cases (expandFrom left ts).result <;> rfl
    | some reference =>
      rw [ht] at hr
      cases reference with
      | index digits => rw [result_expandFrom_index _ _ hr, result_expandFrom_index _ _ ht]; rfl
      | name name => rw [result_expandFrom_name _ _ hr, result_expandFrom_name _ _ ht]; rfl
      | next =>
        cases left with
        | nil => rw [result_expandFrom_exhausted _ hr, result_expandFrom_exhausted _ ht]; rfl
        | cons binding left =>
          rw [result_expandFrom_binding _ _ _ hr, result_expandFrom_binding _ _ _ ht, ih,
            ← map_respan_tokens]
          cases (expandFrom left ts).result with
          | error e => rfl
          | ok r =>
            refine congrArg (fun bound => Except.ok (bound, r.2)) ?_
            exact (BoundTokens.respan_prepend f _ binding.values r.1).symm

end Token
end Placeholder
