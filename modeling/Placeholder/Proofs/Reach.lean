import Placeholder.Proofs.Expansion
import Placeholder.Proofs.Resolution

/-!
How far a query reaches into its bindings: to the names that it mentions, to its greatest index, and to one
position for each placeholder. Bindings beyond may be added, dropped or changed, and what the passes return
stays the same.
-/
namespace Placeholder

variable {α β : Type}

namespace Token

def names (ts : List Token) : List String :=
  (ts.filter fun t => t.kind.isNamed).map inside

def greatestIndex (ts : List Token) : Nat :=
  ((ts.filter fun t => t.kind == .explicit).map fun t => leadingNumber t.inside.toList).foldr max 0

/-- The number of positions that the tokens reach, by an index or one by one. -/
def reach (ts : List Token) : Nat :=
  max (ts.countP isImplicit) (greatestIndex ts)

end Token

namespace Environment

/-- Both environments have the same bindings for the names and at the first positions. -/
structure AgreeOn (env env' : Environment α) (names : List String) (positions : Nat) : Prop where
  named : ∀ name ∈ names, env.lookup? name = env'.lookup? name
  positional : ∀ i < positions, env.positionals[i]? = env'.positionals[i]?

/-- The second environment has the bindings of the first, and perhaps others for further names and after the
last position. -/
structure IsExtendedBy (env env' : Environment α) : Prop where
  named : ∀ name binding, env.lookup? name = some binding → env'.lookup? name = some binding
  positional : env.positionals <+: env'.positionals

end Environment

namespace Rule

variable {rule rule' : Rule β} {ps : List (Token × Nat)}

/-- Rules that put the same for each token have the same run. -/
theorem run_congr (h : ∀ p ∈ ps, rule.put p.2 p.1 = rule'.put p.2 p.1) : rule.run ps = rule'.run ps := by
  induction ps with
  | nil => rfl
  | cons p ps ih =>
    obtain ⟨t, n⟩ := p
    obtain ⟨hput, hps⟩ := List.forall_mem_cons.mp h
    unfold run
    rw [hput, ih hps]

private theorem run_eq_ok_of_put (h : ∀ p ∈ ps, ∀ one, rule.put p.2 p.1 = .ok one → rule'.put p.2 p.1 = .ok one)
    {bound : BoundTokens β} (hrun : rule.run ps = .ok bound) : rule'.run ps = .ok bound := by
  have hclean := run_isOk_iff.mp ⟨bound, hrun⟩
  have hsame : rule.run ps = rule'.run ps := by
    apply run_congr
    intro p hp
    cases hput : rule.put p.2 p.1 with
    | error cause => exact absurd hput (hclean p hp cause)
    | ok one => exact (h p hp one hput).symm
  rw [← hsame, hrun]

end Rule

namespace Token

section Reach

variable {ts : List Token} {t : Token}

theorem mem_of_mem_ranked {n : Nat} {p : Token × Nat} (hp : p ∈ ranked n ts) : p.1 ∈ ts := by
  have hmem : p.1 ∈ (ranked n ts).map Prod.fst := List.mem_map_of_mem hp
  rwa [map_fst_ranked] at hmem

private theorem rank_lt_countP {p : Token × Nat} (hp : p ∈ ranked 0 ts) (hi : p.1.isImplicit) :
    p.2 < ts.countP isImplicit := by
  have hroom : ts.countP isImplicit ≤ ts.countP isImplicit - 0 := Nat.le_refl _
  exact rank_lt_iff.mpr hroom p hp hi

private theorem inside_mem_names (ht : t ∈ ts) (hk : t.kind.isNamed) : t.inside ∈ names ts :=
  List.mem_map_of_mem (List.mem_filter.mpr ⟨ht, hk⟩)

theorem greatestIndex_le_iff {bound : Nat} : greatestIndex ts ≤ bound ↔
    ∀ t ∈ ts, t.kind = .explicit → leadingNumber t.inside.toList ≤ bound := by
  induction ts with
  | nil => simp [greatestIndex]
  | cons t ts ih =>
    rw [List.forall_mem_cons, ← ih]
    unfold greatestIndex
    by_cases hk : t.kind = .explicit
    · rw [List.filter_cons_of_pos (by simp [hk]), List.map_cons, List.foldr_cons, Nat.max_le]
      simp only [hk, true_imp_iff]
    · rw [List.filter_cons_of_neg (by simp [hk])]
      simp only [hk, false_imp_iff, true_and]

private theorem index_le_reach (ht : t ∈ ts) (hk : t.kind = .explicit) :
    leadingNumber t.inside.toList ≤ reach ts := by
  have hle := greatestIndex_le_iff.mp (Nat.le_refl (greatestIndex ts)) t ht hk
  unfold reach
  omega

end Reach

section Resolution

variable {env env' : Environment α} {ts : List Token}

/-- What a parameter is bound to is found within the reach of the tokens. -/
theorem BoundTo.of_agreeOn {p : Token × Nat} {binding : Binding α}
    (h : env.AgreeOn env' (names ts) (reach ts)) (hp : p ∈ ranked 0 ts) (hb : p.1.BoundTo env p.2 binding) :
    p.1.BoundTo env' p.2 binding := by
  have ht := mem_of_mem_ranked hp
  cases hb with
  | placeholder hk hb =>
    have hrank := rank_lt_countP hp (beq_iff_eq.mpr hk)
    have hreach : p.2 < reach ts := by unfold reach; omega
    exact .placeholder hk (by rw [← h.positional p.2 hreach, hb])
  | @index n _ hk hd hb =>
    have hreach : n < reach ts := by
      have hle := index_le_reach ht hk
      have hn := hd.value
      omega
    exact .index hk hd (by rw [← h.positional n hreach, hb])
  | name hk hb => exact .name hk (by rw [← h.named _ (inside_mem_names ht hk), hb])

/-- Resolution looks at nothing beyond the reach of the tokens. -/
theorem resolve_of_agreeOn (h : env.AgreeOn env' (names ts) (reach ts)) {bound : BoundTokens (Binding α)}
    (hok : (resolve env ts).result = .ok bound) : (resolve env' ts).result = .ok bound := by
  rw [result_resolve_eq_run] at hok ⊢
  apply Rule.run_eq_ok_of_put _ hok
  intro p hp one hput
  rcases of_put_eq_ok hput with ⟨hother, rfl⟩ | ⟨_, binding, hb, rfl⟩
  · exact env'.resolution.put_other _ _ (reference?_eq_none_iff.mpr hother)
  · exact put_of_boundTo (hb.of_agreeOn h hp)

/-- Where resolution succeeds every binding within reach is there, so an extension has it too. -/
theorem agreeOn_of_isExtendedBy (h : env.IsExtendedBy env') {bound : BoundTokens (Binding α)}
    (hok : (resolve env ts).result = .ok bound) : env.AgreeOn env' (names ts) (reach ts) := by
  obtain ⟨hnames, hindices, hcount⟩ := resolve_isOk_iff.mp ⟨bound, hok⟩
  constructor
  · intro name hname
    obtain ⟨t, ht, rfl⟩ := List.mem_map.mp hname
    obtain ⟨hmem, hk⟩ := List.mem_filter.mp ht
    obtain ⟨binding, hb⟩ := Option.isSome_iff_exists.mp (hnames t hmem hk)
    rw [hb, h.named _ _ hb]
  · have hgreatest : greatestIndex ts ≤ env.positionals.length := by
      apply greatestIndex_le_iff.mpr
      intro t ht hk
      obtain ⟨n, hd, _, hle⟩ := hindices t ht hk
      rw [hd.value]
      exact hle
    intro i hi
    have hlength : i < env.positionals.length := by
      unfold reach at hi
      omega
    obtain ⟨further, hfurther⟩ := h.positional
    rw [← hfurther, List.getElem?_append_left hlength]

end Resolution

/-- Expansion takes a binding for each placeholder and looks at no other. -/
theorem expand_congr {ts : List Token} {bindings bindings' : List (Binding α)}
    (h : ∀ i < ts.countP isImplicit, bindings[i]? = bindings'[i]?) :
    (expand bindings ts).result = (expand bindings' ts).result := by
  rw [result_expand_eq_run, result_expand_eq_run]
  apply Rule.run_congr
  intro p hp
  cases hr : p.1.reference? with
  | none => rw [(Binding.expansion _).put_other _ _ hr, (Binding.expansion _).put_other _ _ hr]
  | some r =>
    cases r with
    | index digits => rw [Binding.put_expansion_of_index _ _ hr, Binding.put_expansion_of_index _ _ hr]
    | name name => rw [Binding.put_expansion_of_name _ _ hr, Binding.put_expansion_of_name _ _ hr]
    | next =>
      have hrank := rank_lt_countP hp (isImplicit_iff.mpr hr)
      rw [Binding.put_expansion_of_next _ _ hr, Binding.put_expansion_of_next _ _ hr, h p.2 hrank]

/-- Where expansion succeeds it has taken its bindings from the front, so it does not look at further ones. -/
theorem expand_append {ts : List Token} {bindings : List (Binding α)} {bound : BoundTokens α}
    (h : (expand bindings ts).result = .ok bound) (further : List (Binding α)) :
    (expand (bindings ++ further) ts).result = .ok bound := by
  obtain ⟨_, hcount⟩ := expand_isOk_iff.mp ⟨bound, h⟩
  rw [← h]
  apply expand_congr
  intro i hi
  rw [List.getElem?_append_left (by omega)]

end Token

section Query

variable {env env' : Environment α} {query : String}

private theorem resolve_eq_ok_of_tokens
    (h : ∀ bound, (Token.resolve env (lex query)).result = .ok bound →
      (Token.resolve env' (lex query)).result = .ok bound)
    {bound : BoundQuery (Binding α)} (hok : (resolve env query).result = .ok bound) :
    (resolve env' query).result = .ok bound := by
  rw [result_resolve] at hok ⊢
  obtain ⟨resolved, hresolved, rfl⟩ := map_eq_ok_iff.mp hok
  rw [h resolved hresolved]
  rfl

private theorem resolveAndExpand_eq_ok_of_tokens
    (h : ∀ bound, (Token.resolve env (lex query)).result = .ok bound →
      (Token.resolve env' (lex query)).result = .ok bound)
    {bound : BoundQuery α} (hok : (resolveAndExpand env query).result = .ok bound) :
    (resolveAndExpand env' query).result = .ok bound := by
  rw [result_resolveAndExpand] at hok ⊢
  cases hresolved : (Token.resolve env (lex query)).result with
  | error e =>
    rw [hresolved] at hok
    cases hok
  | ok resolved => rw [h resolved hresolved, ← hok, hresolved]

end Query

/-- Resolution with expansion or without it returns the same for every environment that agrees on the names
and the positions that the query reaches, and so for one with further bindings; and expansion returns the same
for all bindings that agree as far as there are placeholders, and so with further bindings after them. -/
theorem only_referenced_bindings_matter (query : String) :
    (∀ env env' : Environment α,
      env.AgreeOn env' (Token.names (lex query)) (Token.reach (lex query)) ∨ env.IsExtendedBy env' →
        (∀ bound, (resolve env query).result = .ok bound → (resolve env' query).result = .ok bound) ∧
        ∀ bound, (resolveAndExpand env query).result = .ok bound →
          (resolveAndExpand env' query).result = .ok bound) ∧
    (∀ bindings bindings' : List (Binding α),
      (∀ i < (lex query).countP Token.isImplicit, bindings[i]? = bindings'[i]?) →
        (expand bindings query).result = (expand bindings' query).result) ∧
    ∀ (bindings further : List (Binding α)) (bound : BoundQuery α),
      (expand bindings query).result = .ok bound → (expand (bindings ++ further) query).result = .ok bound := by
  refine ⟨?_, ?_, ?_⟩
  · intro env env' h
    have htokens : ∀ bound, (Token.resolve env (lex query)).result = .ok bound →
        (Token.resolve env' (lex query)).result = .ok bound := by
      intro bound hok
      rcases h with hagree | hextended
      · exact Token.resolve_of_agreeOn hagree hok
      · exact Token.resolve_of_agreeOn (Token.agreeOn_of_isExtendedBy hextended hok) hok
    exact ⟨fun _ => resolve_eq_ok_of_tokens htokens, fun _ => resolveAndExpand_eq_ok_of_tokens htokens⟩
  · intro bindings bindings' h
    rw [result_expand, result_expand, Token.expand_congr h]
  · intro bindings further bound hok
    rw [result_expand] at hok ⊢
    obtain ⟨expanded, hexpanded, rfl⟩ := map_eq_ok_iff.mp hok
    rw [Token.expand_append hexpanded]
    rfl

/-- A third position and another name are beyond the reach of a query with one name and the index two. -/
theorem same_result_with_third_position :
    let narrow := (⟨∅, [.scalar 7, .sequence [1, 2]]⟩ : Environment Nat).bindName "x" (.scalar 9)
    let wide := (narrow.bindNext (.scalar 3)).bindName "y" (.scalar 5)
    let query := "a=? and b=:x or c=$2"
    (narrow.IsExtendedBy wide ∧ wide.AgreeOn narrow (Token.names (lex query)) (Token.reach (lex query))) ∧
    ((resolve narrow query).result =
        .ok ⟨"a=? and b=? or c=?", [.scalar 7, .scalar 9, .sequence [1, 2]]⟩ ∧
      (resolve wide query).result =
        .ok ⟨"a=? and b=? or c=?", [.scalar 7, .scalar 9, .sequence [1, 2]]⟩) ∧
    ((resolveAndExpand wide query).result = .ok ⟨"a=? and b=? or c=(?, ?)", [7, 9, 1, 2]⟩ ∧
      (resolveAndExpand narrow query).result = .ok ⟨"a=? and b=? or c=(?, ?)", [7, 9, 1, 2]⟩) ∧
    (expand [.sequence [1, 2], .scalar 3] "a=?").result = (expand [.sequence [1, 2]] "a=?").result ∧
    ((expand [.sequence [1, 2]] "a=?").result = .ok ⟨"a=(?, ?)", [1, 2]⟩ ∧
      (expand [.sequence [1, 2], .scalar 3, .scalar 4] "a=?").result = .ok ⟨"a=(?, ?)", [1, 2]⟩) := by
  intro narrow wide query
  have hnames : Token.names (lex query) = ["x"] := by decide +kernel
  have hreach : Token.reach (lex query) = 2 := by decide +kernel
  have hextended : narrow.IsExtendedBy wide := by
    constructor
    · intro name binding hb
      by_cases hx : "x" = name
      · subst hx
        simpa [wide] using hb
      · simp only [narrow, Environment.lookup?_bindName, if_neg hx] at hb
        simp [Environment.lookup?] at hb
    · exact ⟨[.scalar 3], rfl⟩
  have hagree : wide.AgreeOn narrow (Token.names (lex query)) (Token.reach (lex query)) := by
    rw [hnames, hreach]
    constructor
    · intro name hname
      rw [List.mem_singleton.mp hname]
      simp [wide]
    · intro i hi
      have hcases : i = 0 ∨ i = 1 := by omega
      rcases hcases with rfl | rfl <;> rfl
  have hnarrow : (resolve narrow query).result =
      .ok ⟨"a=? and b=? or c=?", [.scalar 7, .scalar 9, .sequence [1, 2]]⟩ := by decide +kernel
  have hwide : (resolveAndExpand wide query).result = .ok ⟨"a=? and b=? or c=(?, ?)", [7, 9, 1, 2]⟩ := by
    decide +kernel
  have hleft : ∀ i < (lex "a=?").countP Token.isImplicit,
      ([.sequence [1, 2], .scalar 3] : List (Binding Nat))[i]? = [Binding.sequence [1, 2]][i]? := by
    have hcount : (lex "a=?").countP Token.isImplicit = 1 := by decide +kernel
    intro i hi
    have hzero : i = 0 := by omega
    rw [hzero]
    rfl
  have hlist : (expand [.sequence [1, 2]] "a=?").result = .ok ⟨"a=(?, ?)", [1, 2]⟩ := by decide +kernel
  obtain ⟨hresolve, _⟩ := (only_referenced_bindings_matter query).1 narrow wide (Or.inr hextended)
  obtain ⟨_, hboth⟩ := (only_referenced_bindings_matter query).1 wide narrow (Or.inl hagree)
  obtain ⟨_, hcongr, hfurther⟩ := only_referenced_bindings_matter (α := Nat) "a=?"
  exact ⟨⟨hextended, hagree⟩, ⟨hnarrow, hresolve _ hnarrow⟩, ⟨hwide, hboth _ hwide⟩, hcongr _ _ hleft, hlist,
    hfurther _ [.scalar 3, .scalar 4] _ hlist⟩

end Placeholder
