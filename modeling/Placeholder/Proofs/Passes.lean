import Placeholder.Bound.Query
import Placeholder.Proofs.Results

/-!
What the passes return, apart from the events that they report: one equation for each thing that a pass does
with a token.
-/
namespace Placeholder

namespace Traced

variable {ε α β : Type}

@[simp] theorem result_emit (event : Event) : (emit event : Traced ε Unit).result = .ok () := rfl

@[simp] theorem result_ofExcept (r : Except ε α) : (ofExcept r).result = r := rfl

@[simp] theorem result_bind (work : Traced ε α) (next : α → Traced ε β) :
    (work >>= next).result = work.result.bind fun a => (next a).result := by
  cases h : work.result with
  | error e => rw [bind_of_error h]; rfl
  | ok a => rw [bind_of_ok h]; rfl

end Traced

variable {α β : Type}

def BoundTokens.prepend (tokens : List Token) (bindings : List β) (bound : BoundTokens β) : BoundTokens β :=
  ⟨tokens ++ bound.tokens, bindings ++ bound.bindings⟩

def Binding.tokens (t : Token) : Binding α → List Token
  | .scalar _ => [t]
  | .sequence values => Token.placeholders values.length t.span

namespace Environment

variable (env : Environment α) (used : Nat) {digits : String}

theorem referent_index_of_malformed (h : readIndex digits.toList = .error .malformed) :
    env.referent used (.index digits) = .error .invalidExplicitIndex := by
  rw [referent, atIndex, h]

theorem referent_index_of_tooLarge (h : readIndex digits.toList = .error .tooLarge) :
    env.referent used (.index digits) = .error (.positionalOutOfRange env.positionals.length) := by
  rw [referent, atIndex, h]

theorem referent_index_of_zero (h : readIndex digits.toList = .ok 0) :
    env.referent used (.index digits) = .error .invalidExplicitIndex := by
  rw [referent, atIndex, h]

theorem referent_index_of_succ {n : Nat} (h : readIndex digits.toList = .ok (n + 1)) :
    env.referent used (.index digits) =
      (env.positionals[n]?).elim (.error (.positionalOutOfRange env.positionals.length)) .ok := by
  rw [referent, atIndex, h]
  cases hn : env.positionals[n]? <;> simp only [hn] <;> rfl

end Environment

namespace Token

/-- A parameter as it stands after resolution; plain text is left as it is. -/
def canonical (t : Token) : Token :=
  if t.isParameter then .implicit t.span else t

theorem isParameter_eq_isSome_reference? (t : Token) : t.isParameter = t.reference?.isSome := by
  cases h : t.kind <;> simp [isParameter, Kind.isParameter, reference?, h]

theorem reference?_eq_none_iff {t : Token} : t.reference? = none ↔ t.isParameter = false := by
  rw [isParameter_eq_isSome_reference?, Option.isSome_eq_false_iff, Option.isNone_iff_eq_none]

theorem isImplicit_iff {t : Token} : t.isImplicit ↔ t.reference? = some .next := by
  cases h : t.kind <;> simp [isImplicit, reference?, h]

theorem kind_eq_other_iff {t : Token} : t.kind = .other ↔ t.reference? = none := by
  cases h : t.kind <;> simp [reference?, h]

theorem reference?_of_implicit {t : Token} (h : t.kind = .implicit) : t.reference? = some .next := by
  rw [reference?, h]

theorem reference?_of_explicit {t : Token} (h : t.kind = .explicit) :
    t.reference? = some (.index t.inside) := by
  rw [reference?, h]

theorem reference?_of_isNamed {t : Token} (h : t.kind.isNamed) : t.reference? = some (.name t.inside) := by
  cases hk : t.kind <;> simp_all [reference?, Kind.isNamed]

section Resolve

variable (env : Environment α) (used : Nat) (ts : List Token) {t : Token}

/-- What resolution does with a token, apart from the event that it reports. -/
theorem result_resolveFrom_cons :
    (resolveFrom env used (t :: ts)).result =
      match t.reference? with
      | none => (resolveFrom env used ts).result.map (Prod.map (.prepend [t] []) id)
      | some r =>
        match env.referent used r with
        | .error cause => .error (.ofToken cause t)
        | .ok binding =>
          (resolveFrom env (if r = .next then used + 1 else used) ts).result.map
            (Prod.map (.prepend [.implicit t.span] [binding]) id) := by
  rw [resolveFrom]
  cases t.reference? with
  | none =>
    simp only [Traced.result_bind]
    cases (resolveFrom env used ts).result <;> rfl
  | some r =>
    simp only [Traced.result_bind, Traced.result_ofExcept, Traced.result_emit]
    cases env.referent used r with
    | error cause => rfl
    | ok binding =>
      change Except.bind (resolveFrom env (if r = .next then used + 1 else used) ts).result _ = _
      cases (resolveFrom env (if r = .next then used + 1 else used) ts).result <;> rfl

theorem result_resolveFrom_other (h : t.reference? = none) :
    (resolveFrom env used (t :: ts)).result =
      (resolveFrom env used ts).result.map (Prod.map (.prepend [t] []) id) := by
  rw [result_resolveFrom_cons, h]

theorem result_resolveFrom_error {r : Reference} {cause : BindError.Cause} (h : t.reference? = some r)
    (he : env.referent used r = .error cause) :
    (resolveFrom env used (t :: ts)).result = .error (.ofToken cause t) := by
  rw [result_resolveFrom_cons, h]
  simp only [he]

theorem result_resolveFrom_ok {r : Reference} {binding : Binding α} (h : t.reference? = some r)
    (hb : env.referent used r = .ok binding) :
    (resolveFrom env used (t :: ts)).result =
      (resolveFrom env (if r = .next then used + 1 else used) ts).result.map
        (Prod.map (.prepend [.implicit t.span] [binding]) id) := by
  rw [result_resolveFrom_cons, h]
  simp only [hb]

theorem result_resolve : (resolve env ts).result = (resolveFrom env 0 ts).result.map Prod.fst := by
  rw [resolve]
  simp only [Traced.result_bind]
  cases (resolveFrom env 0 ts).result <;> rfl

end Resolve

section Expand

variable (left : List (Binding α)) (ts : List Token) {t : Token}

theorem result_expandFrom_nil : (expandFrom left []).result = .ok (⟨[], []⟩, left.length) := rfl

/-- What expansion does with a token, apart from the event that it reports. -/
theorem result_expandFrom_cons :
    (expandFrom left (t :: ts)).result =
      match t.reference?, left with
      | none, _ => (expandFrom left ts).result.map (Prod.map (.prepend [t] []) id)
      | some (.index _), _ => .error (.ofToken .explicitNotAllowed t)
      | some (.name _), _ => .error (.ofToken .namedNotAllowed t)
      | some .next, [] => .error (.ofToken .positionalExhausted t)
      | some .next, binding :: left =>
        (expandFrom left ts).result.map (Prod.map (.prepend (binding.tokens t) binding.values) id) := by
  rw [expandFrom.eq_def]
  dsimp only
  cases t.reference? with
  | none =>
    simp only [Traced.result_bind]
    cases (expandFrom left ts).result <;> rfl
  | some r =>
    cases r with
    | index digits => rfl
    | name name => rfl
    | next =>
      match left with
      | [] => rfl
      | .scalar value :: left =>
        simp only [Traced.result_bind]
        cases (expandFrom left ts).result <;> rfl
      | .sequence values :: left =>
        simp only [Traced.result_bind, Traced.result_emit]
        change Except.bind (expandFrom left ts).result _ = _
        cases (expandFrom left ts).result <;> rfl

theorem result_expandFrom_other (h : t.reference? = none) :
    (expandFrom left (t :: ts)).result =
      (expandFrom left ts).result.map (Prod.map (.prepend [t] []) id) := by
  rw [result_expandFrom_cons, h]

theorem result_expandFrom_index {digits : String} (h : t.reference? = some (.index digits)) :
    (expandFrom left (t :: ts)).result = .error (.ofToken .explicitNotAllowed t) := by
  rw [result_expandFrom_cons, h]

theorem result_expandFrom_name {name : String} (h : t.reference? = some (.name name)) :
    (expandFrom left (t :: ts)).result = .error (.ofToken .namedNotAllowed t) := by
  rw [result_expandFrom_cons, h]

theorem result_expandFrom_exhausted (h : t.reference? = some .next) :
    (expandFrom ([] : List (Binding α)) (t :: ts)).result = .error (.ofToken .positionalExhausted t) := by
  rw [result_expandFrom_cons, h]

theorem result_expandFrom_binding (binding : Binding α) (h : t.reference? = some .next) :
    (expandFrom (binding :: left) (t :: ts)).result =
      (expandFrom left ts).result.map (Prod.map (.prepend (binding.tokens t) binding.values) id) := by
  rw [result_expandFrom_cons, h]

/-- Where expansion goes on behind a token, the token was kept or took the first of the bindings. -/
theorem expandFrom_cons_eq_ok {left : List (Binding α)} {ts : List Token} {r : BoundTokens α × Nat}
    (h : (expandFrom left (t :: ts)).result = .ok r) :
    (t.reference? = none ∧ ∃ r', (expandFrom left ts).result = .ok r' ∧
      Prod.map (.prepend [t] []) id r' = r) ∨
    (t.reference? = some .next ∧ ∃ binding left', left = binding :: left' ∧
      ∃ r', (expandFrom left' ts).result = .ok r' ∧
        Prod.map (.prepend (binding.tokens t) binding.values) id r' = r) := by
  cases ht : t.reference? with
  | none =>
    rw [result_expandFrom_other left ts ht] at h
    exact Or.inl ⟨rfl, map_eq_ok_iff.mp h⟩
  | some reference =>
    cases reference with
    | index digits =>
      rw [result_expandFrom_index left ts ht] at h
      cases h
    | name name =>
      rw [result_expandFrom_name left ts ht] at h
      cases h
    | next =>
      cases left with
      | nil =>
        rw [result_expandFrom_exhausted ts ht] at h
        cases h
      | cons binding left =>
        rw [result_expandFrom_binding left ts binding ht] at h
        exact Or.inr ⟨rfl, binding, left, rfl, map_eq_ok_iff.mp h⟩

theorem result_expand : (expand left ts).result = (expandFrom left ts).result.map Prod.fst := by
  rw [expand]
  simp only [Traced.result_bind]
  cases (expandFrom left ts).result <;> rfl

end Expand
end Token

theorem result_resolve (env : Environment α) (query : String) :
    (resolve env query).result = (Token.resolve env (lex query)).result.map BoundTokens.toQuery := by
  rw [resolve]
  simp only [Traced.result_bind]
  cases (Token.resolve env (lex query)).result <;> rfl

theorem result_expand (bindings : List (Binding α)) (query : String) :
    (expand bindings query).result = (Token.expand bindings (lex query)).result.map BoundTokens.toQuery := by
  rw [expand]
  simp only [Traced.result_bind]
  cases (Token.expand bindings (lex query)).result <;> rfl

theorem result_resolveAndExpand (env : Environment α) (query : String) :
    (resolveAndExpand env query).result =
      (Token.resolve env (lex query)).result.bind fun resolved =>
        (Token.expand resolved.bindings resolved.tokens).result.map BoundTokens.toQuery := by
  rw [resolveAndExpand]
  simp only [Traced.result_bind]
  cases (Token.resolve env (lex query)).result with
  | error e => rfl
  | ok resolved =>
    change Except.bind (Token.expand resolved.bindings resolved.tokens).result _ = Except.map _ _
    cases (Token.expand resolved.bindings resolved.tokens).result <;> rfl

end Placeholder
