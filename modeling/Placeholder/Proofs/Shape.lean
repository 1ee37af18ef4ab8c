import Placeholder.Proofs.Rewriting

/-!
What the passes do depends on the shape of an environment alone: on the names it binds, on the number of its
positions, and on which bindings are lists of which length. Values are only carried from their slots.
-/
namespace Placeholder

variable {α β γ : Type}

/-- Where an environment keeps a binding. -/
inductive Origin
  | name (name : String)
  | position (index : Nat)
deriving DecidableEq, Repr

/-- Where an environment keeps a value; a single value is the first element of its binding. -/
structure Slot where
  origin : Origin
  element : Nat
deriving DecidableEq, Repr

def Binding.SameShape : Binding α → Binding β → Prop
  | .scalar _, .scalar _ => True
  | .sequence values, .sequence values' => values.length = values'.length
  | _, _ => False

namespace Environment

def at? (env : Environment α) : Origin → Option (Binding α)
  | .name name => env.lookup? name
  | .position index => env.positionals[index]?

def value? (env : Environment α) (slot : Slot) : Option α :=
  (env.at? slot.origin).bind fun binding => binding.values[slot.element]?

/-- Both environments bind the same names and as many positions, to bindings of the same shapes. -/
structure SameShape (env : Environment α) (env' : Environment β) : Prop where
  named : ∀ name, Option.Rel Binding.SameShape (env.lookup? name) (env'.lookup? name)
  length : env.positionals.length = env'.positionals.length
  positional : ∀ index : Nat, Option.Rel Binding.SameShape env.positionals[index]? env'.positionals[index]?

end Environment

def BoundQuery.map (f : α → β) (bound : BoundQuery α) : BoundQuery β :=
  ⟨bound.query, bound.bindings.map f⟩

def BoundTokens.map (f : α → β) (bound : BoundTokens α) : BoundTokens β :=
  ⟨bound.tokens, bound.bindings.map f⟩

theorem BoundTokens.map_prepend (f : α → β) (tokens : List Token) (bindings : List α) (bound : BoundTokens α) :
    (bound.prepend tokens bindings).map f = (bound.map f).prepend tokens (bindings.map f) := by
  simp only [prepend, map, List.map_append]

namespace Binding.SameShape

variable {binding : Binding α} {binding' : Binding β}

theorem tokens_eq (h : binding.SameShape binding') (t : Token) : binding.tokens t = binding'.tokens t := by
  cases binding with
  | scalar value =>
    cases binding' with
    | scalar value' => rfl
    | sequence values' => exact absurd h id
  | sequence values =>
    cases binding' with
    | scalar value' => exact absurd h id
    | sequence values' =>
      have hlength : values.length = values'.length := h
      rw [tokens, tokens, hlength]

theorem length_values (h : binding.SameShape binding') : binding.values.length = binding'.values.length := by
  cases binding with
  | scalar value =>
    cases binding' with
    | scalar value' => rfl
    | sequence values' => exact absurd h id
  | sequence values =>
    cases binding' with
    | scalar value' => exact absurd h id
    | sequence values' => exact h

end Binding.SameShape

namespace Environment.SameShape

variable {env : Environment α} {env' : Environment β}

protected theorem refl (env : Environment α) : env.SameShape env := by
  have hrel : ∀ binding? : Option (Binding α), Option.Rel Binding.SameShape binding? binding? := by
    intro binding?
    cases binding? with
    | none => exact .none
    | some binding =>
      cases binding with
      | scalar value => exact .some trivial
      | sequence values => exact .some rfl
  exact ⟨fun name => hrel _, rfl, fun index => hrel _⟩

theorem rel_at? (h : env.SameShape env') (origin : Origin) :
    Option.Rel Binding.SameShape (env.at? origin) (env'.at? origin) := by
  cases origin with
  | name name => exact h.named name
  | position index => exact h.positional index

theorem at?_eq_none (h : env.SameShape env') {origin : Origin} (hp : env.at? origin = none) :
    env'.at? origin = none := by
  have hr := h.rel_at? origin
  rw [hp] at hr
  cases hr' : env'.at? origin with
  | none => rfl
  | some binding =>
    rw [hr'] at hr
    cases hr

theorem exists_at?_eq_some (h : env.SameShape env') {origin : Origin} {binding : Binding α}
    (hp : env.at? origin = some binding) : ∃ binding', env'.at? origin = some binding' := by
  have hr := h.rel_at? origin
  rw [hp] at hr
  cases hr' : env'.at? origin with
  | none =>
    rw [hr'] at hr
    cases hr
  | some binding' => exact ⟨binding', rfl⟩

theorem sameShape_of_at? (h : env.SameShape env') {origin : Origin} {binding : Binding α}
    {binding' : Binding β} (hp : env.at? origin = some binding) (hp' : env'.at? origin = some binding') :
    binding.SameShape binding' := by
  have hr := h.rel_at? origin
  rw [hp, hp'] at hr
  cases hr with
  | some hs => exact hs

end Environment.SameShape

/-- A reference leads to the same origin in every environment of a shape, or fails for the same cause. -/
theorem exists_origin_of_referent (env : Environment α) (used : Nat) (r : Reference) :
    ∃ outcome : Except BindError.Cause Origin, ∀ {β : Type} (env' : Environment β), env.SameShape env' →
      (env'.referent used r).map some = outcome.map env'.at? := by
  -- Where the origin is known, the outcome is that origin or the cause, as the environment decides.
  have horigin : ∀ (origin : Origin) (cause : BindError.Cause),
      ∃ outcome : Except BindError.Cause Origin, ∀ {β : Type} (env' : Environment β), env.SameShape env' →
        (((env'.at? origin).elim (.error cause) .ok : Except BindError.Cause (Binding β))).map some =
          outcome.map env'.at? := by
    intro origin cause
    cases hp : env.at? origin with
    | none =>
      refine ⟨.error cause, fun env' h => ?_⟩
      rw [h.at?_eq_none hp]
      rfl
    | some binding =>
      refine ⟨.ok origin, fun env' h => ?_⟩
      obtain ⟨binding', hp'⟩ := h.exists_at?_eq_some hp
      rw [hp', Except.map, hp']
      rfl
  cases r with
  | next => exact horigin (.position used) .positionalExhausted
  | name name => exact horigin (.name name) .unboundName
  | index digits =>
    cases hread : readIndex digits.toList with
    | error e =>
      cases e with
      | malformed =>
        refine ⟨.error .invalidExplicitIndex, fun env' _ => ?_⟩
        rw [env'.referent_index_of_malformed used hread]
        rfl
      | tooLarge =>
        refine ⟨.error (.positionalOutOfRange env.positionals.length), fun env' h => ?_⟩
        rw [env'.referent_index_of_tooLarge used hread, h.length]
        rfl
    | ok index =>
      cases index with
      | zero =>
        refine ⟨.error .invalidExplicitIndex, fun env' _ => ?_⟩
        rw [env'.referent_index_of_zero used hread]
        rfl
      | succ n =>
        obtain ⟨outcome, ho⟩ := horigin (.position n) (.positionalOutOfRange env.positionals.length)
        refine ⟨outcome, fun env' h => ?_⟩
        rw [env'.referent_index_of_succ used hread, ← h.length]
        exact ho env' h

private theorem map_prepend_eq {σ : Type} {result : Except BindError (BoundTokens α × Nat)}
    {outcome : Except BindError (BoundTokens σ)} {fetch : σ → Option α}
    (h : (result.map fun r => r.1.map some) = outcome.map (BoundTokens.map fetch)) (tokens : List Token)
    {bindings : List α} {origins : List σ} (hb : bindings.map some = origins.map fetch) :
    ((result.map (Prod.map (BoundTokens.prepend tokens bindings) id)).map fun r => r.1.map some) =
      (outcome.map (BoundTokens.prepend tokens origins)).map (BoundTokens.map fetch) := by
  cases result with
  | error e =>
    cases outcome with
    | error e' =>
      cases h
      rfl
    | ok o => cases h
  | ok r =>
    cases outcome with
    | error e => cases h
    | ok o =>
      have ho : r.1.map some = o.map fetch := Except.ok.inj h
      change Except.ok ((r.1.prepend tokens bindings).map some) =
        Except.ok ((o.prepend tokens origins).map fetch)
      rw [BoundTokens.map_prepend, BoundTokens.map_prepend, ho, hb]

/-- Over every environment of a shape resolution fails alike, or gives bindings from the same origins. -/
theorem exists_origins_of_resolveFrom (env : Environment α) (used : Nat) (ts : List Token) :
    ∃ outcome : Except BindError (BoundTokens Origin),
      ∀ {β : Type} (env' : Environment β), env.SameShape env' →
        ((Token.resolveFrom env' used ts).result.map fun r => r.1.map some) =
          outcome.map (BoundTokens.map env'.at?) := by
  induction ts generalizing used with
  | nil => exact ⟨Except.ok ⟨[], []⟩, fun _ _ => rfl⟩
  | cons t ts ih =>
    cases ht : t.reference? with
    | none =>
      obtain ⟨outcome, ho⟩ := ih used
      refine ⟨outcome.map (BoundTokens.prepend [t] []), fun env' h => ?_⟩
      rw [Token.result_resolveFrom_other env' used ts ht]
      exact map_prepend_eq (ho env' h) [t] rfl
    | some r =>
      obtain ⟨found, hf⟩ := exists_origin_of_referent env used r
      cases found with
      | error cause =>
        refine ⟨Except.error (.ofToken cause t), fun env' h => ?_⟩
        have hr : env'.referent used r = .error cause := map_eq_error_iff.mp (hf env' h)
        rw [Token.result_resolveFrom_error env' used ts ht hr]
        rfl
      | ok origin =>
        obtain ⟨outcome, ho⟩ := ih (if r = .next then used + 1 else used)
        refine ⟨outcome.map (BoundTokens.prepend [.implicit t.span] [origin]), fun env' h => ?_⟩
        obtain ⟨binding, hr, hb⟩ := map_eq_ok_iff.mp (hf env' h)
        rw [Token.result_resolveFrom_ok env' used ts ht hr]
        exact map_prepend_eq (ho env' h) _ (congrArg (· :: []) hb)

/-- The slots of the values of a binding that has so many. -/
def Origin.slots (origin : Origin) (count : Nat) : List Slot :=
  (List.range count).map (Slot.mk origin)

private theorem map_value?_slots {env : Environment α} {origin : Origin} {binding : Binding α}
    (h : env.at? origin = some binding) :
    binding.values.map some = (origin.slots binding.values.length).map env.value? := by
  have hslots : (origin.slots binding.values.length).map env.value? =
      (List.range binding.values.length).map fun i => binding.values[i]? := by
    rw [Origin.slots, List.map_map]
    apply List.map_congr_left
    intro i _
    rw [Function.comp_apply, Environment.value?, h]
    rfl
  rw [hslots]
  exact List.ext_getElem (by simp) fun i _ _ => by simp

private theorem exists_cons_of_map_some {σ : Type} {bindings : List α} {origin : σ} {origins : List σ}
    {fetch : σ → Option α} (h : bindings.map some = (origin :: origins).map fetch) :
    ∃ binding left, bindings = binding :: left ∧ fetch origin = some binding ∧
      left.map some = origins.map fetch := by
  cases bindings with
  | nil => cases h
  | cons binding left =>
    obtain ⟨hb, hl⟩ := List.cons.inj h
    exact ⟨binding, left, rfl, hb.symm, hl⟩

/-- Over every environment of a shape expansion of bindings from given origins fails alike, or gives values
from the same slots. -/
theorem exists_slots_of_expandFrom (env : Environment α) (origins : List Origin) (ts : List Token) :
    ∃ outcome : Except BindError (BoundTokens Slot),
      ∀ {β : Type} (env' : Environment β), env.SameShape env' →
        ∀ left, left.map some = origins.map env'.at? →
          ((Token.expandFrom left ts).result.map fun r => r.1.map some) =
            outcome.map (BoundTokens.map env'.value?) := by
  induction ts generalizing origins with
  | nil =>
    refine ⟨Except.ok ⟨[], []⟩, fun env' _ left _ => ?_⟩
    rw [Token.result_expandFrom_nil]
    rfl
  | cons t ts ih =>
    cases ht : t.reference? with
    | none =>
      obtain ⟨outcome, ho⟩ := ih origins
      refine ⟨outcome.map (BoundTokens.prepend [t] []), fun env' h left hl => ?_⟩
      rw [Token.result_expandFrom_other _ _ ht]
      exact map_prepend_eq (ho env' h left hl) [t] rfl
    | some r =>
      cases r with
      | index digits =>
        refine ⟨Except.error (.ofToken .explicitNotAllowed t), fun env' _ left _ => ?_⟩
        rw [Token.result_expandFrom_index _ _ ht]
        rfl
      | name name =>
        refine ⟨Except.error (.ofToken .namedNotAllowed t), fun env' _ left _ => ?_⟩
        rw [Token.result_expandFrom_name _ _ ht]
        rfl
      | next =>
        cases origins with
        | nil =>
          refine ⟨Except.error (.ofToken .positionalExhausted t), fun env' _ left hl => ?_⟩
          rw [List.map_eq_nil_iff.mp hl, Token.result_expandFrom_exhausted _ ht]
          rfl
        | cons origin origins =>
          obtain ⟨outcome, ho⟩ := ih origins
          cases hp : env.at? origin with
          | none =>
            -- The origin has no binding in any environment of the shape, so there is nothing to show.
            refine ⟨outcome, fun env' h left hl => ?_⟩
            obtain ⟨binding', _, rfl, hp', _⟩ := exists_cons_of_map_some hl
            rw [h.at?_eq_none hp] at hp'
            cases hp'
          | some binding =>
            refine ⟨outcome.map (BoundTokens.prepend (binding.tokens t)
              (origin.slots binding.values.length)), fun env' h left hl => ?_⟩
            obtain ⟨binding', left, rfl, hp', hl'⟩ := exists_cons_of_map_some hl
            have hs := h.sameShape_of_at? hp hp'
            rw [Token.result_expandFrom_binding _ _ _ ht, hs.tokens_eq, hs.length_values]
            exact map_prepend_eq (ho env' h left hl') _ (map_value?_slots hp')

private theorem positionals_map_some (env : Environment α) {count : Nat} (h : env.positionals.length = count) :
    env.positionals.map some = ((List.range count).map Origin.position).map env.at? := by
  rw [List.map_map, ← h]
  exact List.ext_getElem (by simp) fun i _ _ => by simp [Environment.at?]

theorem exists_origins_of_resolve (env : Environment α) (ts : List Token) :
    ∃ outcome : Except BindError (BoundTokens Origin),
      ∀ {β : Type} (env' : Environment β), env.SameShape env' →
        (Token.resolve env' ts).result.map (BoundTokens.map some) =
          outcome.map (BoundTokens.map env'.at?) := by
  obtain ⟨outcome, ho⟩ := exists_origins_of_resolveFrom env 0 ts
  refine ⟨outcome, fun env' h => ?_⟩
  rw [← ho env' h, Token.result_resolve]
  cases (Token.resolveFrom env' 0 ts).result <;> rfl

theorem exists_slots_of_expand (env : Environment α) (origins : List Origin) (ts : List Token) :
    ∃ outcome : Except BindError (BoundTokens Slot),
      ∀ {β : Type} (env' : Environment β), env.SameShape env' →
        ∀ bindings, bindings.map some = origins.map env'.at? →
          (Token.expand bindings ts).result.map (BoundTokens.map some) =
            outcome.map (BoundTokens.map env'.value?) := by
  obtain ⟨outcome, ho⟩ := exists_slots_of_expandFrom env origins ts
  refine ⟨outcome, fun env' h bindings hb => ?_⟩
  rw [← ho env' h bindings hb, Token.result_expand]
  cases (Token.expandFrom bindings ts).result <;> rfl

private theorem map_toQuery_eq {σ : Type} {result : Except BindError (BoundTokens α)}
    {outcome : Except BindError (BoundTokens σ)} {fetch : σ → Option α}
    (h : result.map (BoundTokens.map some) = outcome.map (BoundTokens.map fetch)) :
    (result.map BoundTokens.toQuery).map (BoundQuery.map some) =
      (outcome.map BoundTokens.toQuery).map (BoundQuery.map fetch) := by
  have hquery := congrArg (Except.map BoundTokens.toQuery) h
  cases result <;> cases outcome <;> exact hquery

theorem exists_slots_of_resolve_expand (env : Environment α) (ts : List Token) :
    ∃ outcome : Except BindError (BoundTokens Slot),
      ∀ {β : Type} (env' : Environment β), env.SameShape env' →
        ((Token.resolve env' ts).result.bind fun resolved =>
            (Token.expand resolved.bindings resolved.tokens).result).map (BoundTokens.map some) =
          outcome.map (BoundTokens.map env'.value?) := by
  obtain ⟨resolved, hresolved⟩ := exists_origins_of_resolve env ts
  cases resolved with
  | error e =>
    refine ⟨Except.error e, fun env' h => ?_⟩
    rw [map_eq_error_iff.mp (hresolved env' h)]
    rfl
  | ok bound =>
    obtain ⟨outcome, ho⟩ := exists_slots_of_expand env bound.bindings bound.tokens
    refine ⟨outcome, fun env' h => ?_⟩
    obtain ⟨bound', hr, hb⟩ := map_eq_ok_iff.mp (hresolved env' h)
    have htokens : bound'.tokens = bound.tokens := congrArg BoundTokens.tokens hb
    have hbindings : bound'.bindings.map some = bound.bindings.map env'.at? :=
      congrArg BoundTokens.bindings hb
    rw [hr]
    change (Token.expand bound'.bindings bound'.tokens).result.map _ = _
    rw [htokens]
    exact ho env' h bound'.bindings hbindings

/-- For all environments of one shape there is one outcome of each pass: the same error, or the same query
with values, or whole bindings, from the same slots. -/
theorem outcome_depends_on_shape (env : Environment α) (query : String) :
    ∃ (resolved : Except BindError (BoundQuery Origin)) (expanded both : Except BindError (BoundQuery Slot)),
      ∀ {β : Type} (env' : Environment β), env.SameShape env' →
        (resolve env' query).result.map (BoundQuery.map some) = resolved.map (BoundQuery.map env'.at?) ∧
        (expand env'.positionals query).result.map (BoundQuery.map some) =
          expanded.map (BoundQuery.map env'.value?) ∧
        (resolveAndExpand env' query).result.map (BoundQuery.map some) =
          both.map (BoundQuery.map env'.value?) := by
  obtain ⟨resolved, hresolved⟩ := exists_origins_of_resolve env (lex query)
  obtain ⟨expanded, hexpanded⟩ := exists_slots_of_expand env
    ((List.range env.positionals.length).map Origin.position) (lex query)
  obtain ⟨both, hboth⟩ := exists_slots_of_resolve_expand env (lex query)
  refine ⟨resolved.map BoundTokens.toQuery, expanded.map BoundTokens.toQuery,
    both.map BoundTokens.toQuery, fun env' h => ⟨?_, ?_, ?_⟩⟩
  · rw [result_resolve]
    exact map_toQuery_eq (hresolved env' h)
  · rw [result_expand]
    exact map_toQuery_eq (hexpanded env' h _ (positionals_map_some env' h.length.symm))
  · have hb := map_toQuery_eq (hboth env' h)
    rw [result_resolveAndExpand, ← hb]
    cases (Token.resolve env' (lex query)).result <;> rfl

theorem outcome_of_lists_of_one_length :
    (⟨∅, [.sequence [7, 8]]⟩ : Environment Nat).SameShape (⟨∅, [.sequence [9, 9]]⟩ : Environment Nat) ∧
      ∃ outcome : Except BindError (BoundQuery Slot),
        ∀ values ∈ [[7, 8], [9, 9]],
          (resolveAndExpand (⟨∅, [.sequence values]⟩ : Environment Nat) "a=?").result.map
              (BoundQuery.map some) =
            outcome.map (BoundQuery.map (Environment.value? ⟨∅, [.sequence values]⟩)) := by
  have hshape : (⟨∅, [.sequence [7, 8]]⟩ : Environment Nat).SameShape
      (⟨∅, [.sequence [9, 9]]⟩ : Environment Nat) := by
    refine ⟨fun name => ?_, rfl, fun index => ?_⟩
    · simp only [Environment.lookup?, Std.TreeMap.getElem?_emptyc]
      exact .none
    · cases index with
      | zero => exact .some rfl
      | succ index => exact .none
  obtain ⟨_, _, both, h⟩ := outcome_depends_on_shape (⟨∅, [.sequence [7, 8]]⟩ : Environment Nat) "a=?"
  refine ⟨hshape, both, fun values hv => ?_⟩
  simp only [List.mem_cons, List.not_mem_nil, or_false] at hv
  rcases hv with rfl | rfl
  · exact (h _ (.refl _)).2.2
  · exact (h _ hshape).2.2

end Placeholder
