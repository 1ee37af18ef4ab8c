import Placeholder.Proofs.Indices
import Placeholder.Proofs.Ranks
import Mathlib.Control.Monad.Basic
import Mathlib.Data.List.Forall2

/-!
What resolution does with tokens of any origin, lexed or not: when every parameter is bound, to what each of
them is, and which one is reported when one is not.
-/
namespace Placeholder

variable {α : Type}

namespace Token

/-- What a parameter is bound to when so many placeholders stand before it. -/
inductive BoundTo (env : Environment α) (before : Nat) (t : Token) : Binding α → Prop
  | placeholder {binding : Binding α} : t.kind = .implicit → env.positionals[before]? = some binding →
    BoundTo env before t binding
  | index {n : Nat} {binding : Binding α} : t.kind = .explicit → Denotes t.inside.toList (n + 1) →
    env.positionals[n]? = some binding → BoundTo env before t binding
  | name {binding : Binding α} : t.kind.isNamed → env.lookup? t.inside = some binding →
    BoundTo env before t binding

/-- Why a parameter is bound to nothing when so many placeholders stand before it. -/
inductive Unbound (env : Environment α) (before : Nat) (t : Token) : BindError.Cause → Prop
  | placeholder : t.kind = .implicit → env.positionals.length ≤ before →
    Unbound env before t .positionalExhausted
  | zero : t.kind = .explicit → Denotes t.inside.toList 0 → Unbound env before t .invalidExplicitIndex
  | malformed : t.kind = .explicit → leadingNumber t.inside.toList < UInt64.size →
    ¬ IsNumeral t.inside.toList → Unbound env before t .invalidExplicitIndex
  | pastEnd {n : Nat} : t.kind = .explicit → Denotes t.inside.toList n → env.positionals.length < n →
    Unbound env before t (.positionalOutOfRange env.positionals.length)
  | tooLarge : t.kind = .explicit → UInt64.size ≤ leadingNumber t.inside.toList →
    Unbound env before t (.positionalOutOfRange env.positionals.length)
  | name : t.kind.isNamed → env.lookup? t.inside = none → Unbound env before t .unboundName

section Resolution

variable {env : Environment α} {before : Nat} {t : Token}

theorem put_of_boundTo {binding : Binding α} (h : t.BoundTo env before binding) :
    env.resolution.put before t = .ok ⟨[.implicit t.span], [binding]⟩ := by
  cases h with
  | placeholder hk hb =>
    rw [env.put_resolution_of_reference before (reference?_of_implicit hk), Environment.referent, hb]
    rfl
  | index hk hd hb =>
    rw [env.put_resolution_of_reference before (reference?_of_explicit hk),
      env.referent_index_of_succ before (readIndex_eq_ok_iff.mpr hd), hb]
    rfl
  | name hk hb =>
    rw [env.put_resolution_of_reference before (reference?_of_isNamed hk), Environment.referent, hb]
    rfl

theorem put_of_unbound {cause : BindError.Cause} (h : t.Unbound env before cause) :
    env.resolution.put before t = .error cause := by
  cases h with
  | placeholder hk hlen =>
    rw [env.put_resolution_of_reference before (reference?_of_implicit hk), Environment.referent,
      List.getElem?_eq_none hlen]
    rfl
  | zero hk hd =>
    rw [env.put_resolution_of_reference before (reference?_of_explicit hk),
      env.referent_index_of_zero before (readIndex_eq_ok_iff.mpr hd)]
    rfl
  | malformed hk hfits hnum =>
    rw [env.put_resolution_of_reference before (reference?_of_explicit hk),
      env.referent_index_of_malformed before (readIndex_eq_malformed_iff.mpr ⟨hfits, hnum⟩)]
    rfl
  | @pastEnd n hk hd hlen =>
    obtain ⟨n, rfl⟩ := Nat.exists_eq_add_one_of_ne_zero (Nat.ne_zero_of_lt hlen)
    rw [env.put_resolution_of_reference before (reference?_of_explicit hk),
      env.referent_index_of_succ before (readIndex_eq_ok_iff.mpr hd),
      List.getElem?_eq_none (Nat.le_of_lt_succ hlen)]
    rfl
  | tooLarge hk hlarge =>
    rw [env.put_resolution_of_reference before (reference?_of_explicit hk),
      env.referent_index_of_tooLarge before (readIndex_eq_tooLarge_iff.mpr hlarge)]
    rfl
  | name hk hb =>
    rw [env.put_resolution_of_reference before (reference?_of_isNamed hk), Environment.referent, hb]
    rfl

/-- A parameter is bound when its name is, its index is one of the positions, or a position is left for it. -/
theorem boundTo_or_unbound (env : Environment α) (before : Nat) (hp : t.isParameter) :
    (∃ binding, t.BoundTo env before binding) ∨ ∃ cause, t.Unbound env before cause := by
  have hname : t.kind.isNamed →
      (∃ binding, t.BoundTo env before binding) ∨ ∃ cause, t.Unbound env before cause := by
    intro hk
    cases hb : env.lookup? t.inside with
    | none => exact Or.inr ⟨_, .name hk hb⟩
    | some binding => exact Or.inl ⟨binding, .name hk hb⟩
  cases hk : t.kind with
  | other =>
    rw [isParameter, hk] at hp
    cases hp
  | named => exact hname (by rw [hk]; rfl)
  | percentNamed => exact hname (by rw [hk]; rfl)
  | implicit =>
    cases hb : env.positionals[before]? with
    | none => exact Or.inr ⟨_, .placeholder hk (List.getElem?_eq_none_iff.mp hb)⟩
    | some binding => exact Or.inl ⟨binding, .placeholder hk hb⟩
  | explicit =>
    rcases Nat.lt_or_ge (leadingNumber t.inside.toList) UInt64.size with hfits | hlarge
    · by_cases hnum : IsNumeral t.inside.toList
      · obtain ⟨index, hd⟩ : ∃ index, Denotes t.inside.toList index := ⟨_, hnum, rfl, hfits⟩
        cases index with
        | zero => exact Or.inr ⟨_, .zero hk hd⟩
        | succ n =>
          cases hb : env.positionals[n]? with
          | none =>
            have hlen := Nat.lt_succ_of_le (List.getElem?_eq_none_iff.mp hb)
            exact Or.inr ⟨_, .pastEnd hk hd hlen⟩
          | some binding => exact Or.inl ⟨binding, .index hk hd hb⟩
      · exact Or.inr ⟨_, .malformed hk hfits hnum⟩
    · exact Or.inr ⟨_, .tooLarge hk hlarge⟩

/-- Plain text is kept, and a bound parameter gives way to a placeholder. -/
theorem of_put_eq_ok {one : BoundTokens (Binding α)} (h : env.resolution.put before t = .ok one) :
    t.isParameter = false ∧ one = ⟨[t], []⟩ ∨
      t.isParameter ∧ ∃ binding, t.BoundTo env before binding ∧ one = ⟨[.implicit t.span], [binding]⟩ := by
  cases hp : t.isParameter with
  | false =>
    rw [env.resolution.put_other before t (reference?_eq_none_iff.mpr hp)] at h
    cases h
    exact Or.inl ⟨rfl, rfl⟩
  | true =>
    rcases boundTo_or_unbound env before hp with ⟨binding, hb⟩ | ⟨cause, hu⟩
    · rw [put_of_boundTo hb] at h
      cases h
      exact Or.inr ⟨rfl, binding, hb, rfl⟩
    · rw [put_of_unbound hu] at h
      cases h

theorem put_eq_error_iff {cause : BindError.Cause} :
    env.resolution.put before t = .error cause ↔ t.Unbound env before cause := by
  refine ⟨fun h => ?_, put_of_unbound⟩
  have hp := Rule.isParameter_of_put_eq_error h
  rcases boundTo_or_unbound env before hp with ⟨binding, hb⟩ | ⟨cause', hu⟩
  · rw [put_of_boundTo hb] at h
    cases h
  · rw [put_of_unbound hu] at h
    cases h
    exact hu

/-- What a parameter needs to be bound. -/
theorem not_unbound_iff : (∀ cause, ¬ t.Unbound env before cause) ↔
    (t.kind.isNamed → (env.lookup? t.inside).isSome) ∧
    (t.kind = .explicit → ∃ n, Denotes t.inside.toList n ∧ 1 ≤ n ∧ n ≤ env.positionals.length) ∧
    (t.isImplicit → before < env.positionals.length) := by
  constructor
  · intro h
    refine ⟨fun hk => ?_, fun hk => ?_, fun hi => ?_⟩
    · rw [Option.isSome_iff_ne_none]
      exact fun hb => h _ (.name hk hb)
    · have hp : t.isParameter := by
        rw [isParameter, hk]
        rfl
      rcases boundTo_or_unbound env before hp with ⟨binding, hb⟩ | ⟨cause, hu⟩
      · cases hb with
        | placeholder hk' _ =>
          rw [hk] at hk'
          cases hk'
        | name hk' _ =>
          rw [hk] at hk'
          cases hk'
        | index _ hd hb =>
          obtain ⟨hlen, _⟩ := List.getElem?_eq_some_iff.mp hb
          exact ⟨_, hd, Nat.succ_pos _, hlen⟩
      · exact absurd hu (h cause)
    · exact Nat.lt_of_not_le fun hlen => h _ (.placeholder (beq_iff_eq.mp hi) hlen)
  · rintro ⟨hname, hindex, hplace⟩ cause hu
    cases hu with
    | placeholder hk hlen => exact absurd (hplace (beq_iff_eq.mpr hk)) (Nat.not_lt.mpr hlen)
    | zero hk hd =>
      obtain ⟨n, hn, hpos, _⟩ := hindex hk
      exact absurd (hn.value.symm.trans hd.value) (Nat.ne_zero_of_lt hpos)
    | malformed hk _ hnum =>
      obtain ⟨n, hn, _⟩ := hindex hk
      exact hnum hn.numeral
    | pastEnd hk hd hlen =>
      obtain ⟨n, hn, _, hle⟩ := hindex hk
      rw [← hn.value, hd.value] at hle
      exact absurd hle (Nat.not_le.mpr hlen)
    | tooLarge hk hlarge =>
      obtain ⟨n, hn, _⟩ := hindex hk
      rw [hn.value] at hlarge
      exact absurd hn.fits (Nat.not_lt.mpr hlarge)
    | name hk hb =>
      have hsome := hname hk
      rw [hb] at hsome
      cases hsome

private theorem bound_of_run {ps : List (Token × Nat)} {bound : BoundTokens (Binding α)}
    (h : env.resolution.run ps = .ok bound) :
    bound.tokens = (ps.map Prod.fst).map canonical ∧
      List.Forall₂ (fun p binding => p.1.BoundTo env p.2 binding) (ps.filter fun p => p.1.isParameter)
        bound.bindings := by
  induction h using Rule.run_ok_induction with
  | nil => exact ⟨rfl, .nil⟩
  | cons t n ps one rest hput _ ih =>
    obtain ⟨htokens, hbindings⟩ := ih
    rw [List.map_cons, List.map_cons, ← htokens, canonical]
    rcases of_put_eq_ok hput with ⟨hp, rfl⟩ | ⟨hp, binding, hb, rfl⟩
    · rw [hp, List.filter_cons_of_neg (by rw [hp]; decide)]
      exact ⟨rfl, hbindings⟩
    · rw [hp, List.filter_cons_of_pos (by exact hp)]
      exact ⟨rfl, .cons hb hbindings⟩

theorem resolve_isOk_iff {ts : List Token} : (∃ bound, (resolve env ts).result = .ok bound) ↔
    (∀ t ∈ ts, t.kind.isNamed → (env.lookup? t.inside).isSome) ∧
    (∀ t ∈ ts, t.kind = .explicit →
      ∃ n, Denotes t.inside.toList n ∧ 1 ≤ n ∧ n ≤ env.positionals.length) ∧
    ts.countP isImplicit ≤ env.positionals.length := by
  rw [result_resolve_eq_run, Rule.run_isOk_iff]
  simp only [ne_eq, put_eq_error_iff, not_unbound_iff, forall_and, rank_lt_iff, Nat.sub_zero]
  refine and_congr ?_ (and_congr ?_ Iff.rfl)
  · exact forall_mem_ranked_iff (P := fun t => t.kind.isNamed → (env.lookup? t.inside).isSome)
  · exact forall_mem_ranked_iff (P := fun t => t.kind = .explicit →
      ∃ n, Denotes t.inside.toList n ∧ 1 ≤ n ∧ n ≤ env.positionals.length)

theorem bound_of_resolve {ts : List Token} {bound : BoundTokens (Binding α)}
    (h : (resolve env ts).result = .ok bound) : bound.tokens = ts.map canonical ∧
      List.Forall₂ (fun p binding => p.1.BoundTo env p.2 binding)
        ((ranked 0 ts).filter fun p => p.1.isParameter) bound.bindings := by
  rw [result_resolve_eq_run] at h
  obtain ⟨htokens, hbindings⟩ := bound_of_run h
  rw [map_fst_ranked] at htokens
  exact ⟨htokens, hbindings⟩

/-- Resolution gives one binding for each parameter. -/
theorem length_bindings_of_resolve {ts : List Token} {bound : BoundTokens (Binding α)}
    (h : (resolve env ts).result = .ok bound) : bound.bindings.length = ts.countP isParameter := by
  rw [← (bound_of_resolve h).2.length_eq, length_filter_ranked]

theorem resolve_eq_error_iff {ts : List Token} {e : BindError} : (resolve env ts).result = .error e ↔
    ∃ before t rank after cause, ranked 0 ts = before ++ (t, rank) :: after ∧
      (∀ p ∈ before, ∀ cause, ¬ p.1.Unbound env p.2 cause) ∧ t.Unbound env rank cause ∧
      e = .ofToken cause t := by
  rw [result_resolve_eq_run, Rule.run_eq_error_iff]
  simp only [ne_eq, put_eq_error_iff]

end Resolution

/-- Resolution succeeds just when every name is bound, every index is one of a position, and there are
positions for all placeholders. Then every parameter has given way to a placeholder in its place, with what
its name, its index or its rank leads to. Otherwise the leftmost parameter that is bound to nothing is
reported. -/
theorem resolve_determined_by_rank (env : Environment α) (ts : List Token) :
    ((∃ bound, (resolve env ts).result = .ok bound) ↔
      (∀ t ∈ ts, t.kind.isNamed → (env.lookup? t.inside).isSome) ∧
      (∀ t ∈ ts, t.kind = .explicit →
        ∃ n, Denotes t.inside.toList n ∧ 1 ≤ n ∧ n ≤ env.positionals.length) ∧
      ts.countP isImplicit ≤ env.positionals.length) ∧
    (∀ bound, (resolve env ts).result = .ok bound →
      bound.tokens = ts.map canonical ∧
      List.Forall₂ (fun p binding => p.1.BoundTo env p.2 binding)
        ((ranked 0 ts).filter fun p => p.1.isParameter) bound.bindings) ∧
    ∀ e, (resolve env ts).result = .error e ↔
      ∃ before t rank after cause, ranked 0 ts = before ++ (t, rank) :: after ∧
        (∀ p ∈ before, ∀ cause, ¬ p.1.Unbound env p.2 cause) ∧ t.Unbound env rank cause ∧
        e = .ofToken cause t := by
  refine ⟨resolve_isOk_iff, fun bound h => ?_, fun e => ?_⟩
  · exact bound_of_resolve h
  · exact resolve_eq_error_iff

/-- The part inside decides, whatever the text; a third placeholder finds two positions taken. -/
theorem resolve_by_inside_and_rank :
    ((resolve (⟨∅, [.scalar 7, .sequence [8, 9]]⟩ : Environment Nat)
        [⟨.explicit, ":1", "+002", ⟨9, 3⟩⟩, .implicit ⟨0, 0⟩, .implicit ⟨5, 6⟩]).result =
        .ok ⟨[.implicit ⟨9, 3⟩, .implicit ⟨0, 0⟩, .implicit ⟨5, 6⟩],
          [.sequence [8, 9], .scalar 7, .sequence [8, 9]]⟩ ∧
      List.Forall₂ (fun p binding => p.1.BoundTo ⟨∅, [.scalar 7, .sequence [8, 9]]⟩ p.2 binding)
        ((ranked 0 [⟨.explicit, ":1", "+002", ⟨9, 3⟩⟩, .implicit ⟨0, 0⟩, .implicit ⟨5, 6⟩]).filter
          fun p => p.1.isParameter) [.sequence [8, 9], .scalar 7, .sequence [8, 9]]) ∧
    (resolve (⟨∅, [.scalar 7, .sequence [8, 9]]⟩ : Environment Nat)
        [.implicit ⟨0, 1⟩, .implicit ⟨1, 2⟩, .implicit ⟨2, 3⟩]).result =
        .error ⟨.positionalExhausted, "?", ⟨2, 3⟩⟩ ∧
      ∃ before t rank after cause,
        ranked 0 [.implicit ⟨0, 1⟩, .implicit ⟨1, 2⟩, .implicit ⟨2, 3⟩] = before ++ (t, rank) :: after ∧
        (∀ p ∈ before, ∀ cause, ¬ p.1.Unbound (⟨∅, [.scalar 7, .sequence [8, 9]]⟩ : Environment Nat) p.2 cause) ∧
        t.Unbound (⟨∅, [.scalar 7, .sequence [8, 9]]⟩ : Environment Nat) rank cause ∧
        ⟨.positionalExhausted, "?", ⟨2, 3⟩⟩ = BindError.ofToken cause t := by
  have hok : (resolve (⟨∅, [.scalar 7, .sequence [8, 9]]⟩ : Environment Nat)
      [⟨.explicit, ":1", "+002", ⟨9, 3⟩⟩, .implicit ⟨0, 0⟩, .implicit ⟨5, 6⟩]).result =
      .ok ⟨[.implicit ⟨9, 3⟩, .implicit ⟨0, 0⟩, .implicit ⟨5, 6⟩],
        [.sequence [8, 9], .scalar 7, .sequence [8, 9]]⟩ := by decide +kernel
  have herror : (resolve (⟨∅, [.scalar 7, .sequence [8, 9]]⟩ : Environment Nat)
      [.implicit ⟨0, 1⟩, .implicit ⟨1, 2⟩, .implicit ⟨2, 3⟩]).result =
      .error ⟨.positionalExhausted, "?", ⟨2, 3⟩⟩ := by decide +kernel
  exact ⟨⟨hok, ((resolve_determined_by_rank _ _).2.1 _ hok).2⟩, herror,
    ((resolve_determined_by_rank _ _).2.2 _).mp herror⟩

end Token
end Placeholder
