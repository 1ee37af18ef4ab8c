import Mathlib.Data.List.Forall2

/-! Results that may be errors: when a chain of them succeeds, and which error of a row comes first. -/
namespace Placeholder

variable {ε α β : Type}

theorem bind_eq_ok_iff {r : Except ε α} {next : α → Except ε β} {b : β} :
    (r >>= next) = .ok b ↔ ∃ a, r = .ok a ∧ next a = .ok b := by
  cases r <;> simp [bind, Except.bind]

theorem map_eq_ok_iff {f : α → β} {r : Except ε α} {b : β} :
    f <$> r = .ok b ↔ ∃ a, r = .ok a ∧ f a = b := by
  cases r <;> simp [Functor.map, Except.map]

theorem exists_map_eq_ok_iff {f : α → β} {r : Except ε α} : (∃ b, f <$> r = .ok b) ↔ ∃ a, r = .ok a := by
  cases r <;> simp [Functor.map, Except.map]

theorem map_eq_error_iff {f : α → β} {r : Except ε α} {e : ε} : f <$> r = .error e ↔ r = .error e := by
  cases r <;> simp [Functor.map, Except.map]

def failure? : Except ε α → Option ε
  | .ok _ => none
  | .error e => some e

theorem failure?_eq_none_iff {r : Except ε α} : failure? r = none ↔ ∃ a, r = .ok a := by
  cases r <;> simp [failure?]

theorem failure?_eq_some_iff {r : Except ε α} {e : ε} : failure? r = some e ↔ r = .error e := by
  cases r <;> simp [failure?]

theorem findSome?_failure?_eq_none_iff {steps : List (Except ε α)} :
    steps.findSome? failure? = none ↔ ∀ step ∈ steps, ∃ a, step = .ok a := by
  simp only [List.findSome?_eq_none_iff, failure?_eq_none_iff]

/-- The first error of a row of results. -/
theorem findSome?_failure?_eq_some_iff {steps : List (Except ε α)} {e : ε} :
    steps.findSome? failure? = some e ↔
      ∃ before after, steps = before ++ .error e :: after ∧ ∀ step ∈ before, ∃ a, step = .ok a := by
  rw [List.findSome?_eq_some_iff]
  constructor
  · rintro ⟨before, step, after, rfl, hstep, hbefore⟩
    rw [failure?_eq_some_iff.mp hstep]
    exact ⟨before, after, rfl, fun s hs => failure?_eq_none_iff.mp (hbefore s hs)⟩
  · rintro ⟨before, after, rfl, hbefore⟩
    exact ⟨before, .error e, after, rfl, rfl, fun s hs => failure?_eq_none_iff.mpr (hbefore s hs)⟩

/-! Lists worked through element by element. -/

variable {f : α → Except ε β} {as : List α}

theorem mapM_eq_ok_iff {bs : List β} : as.mapM f = .ok bs ↔ List.Forall₂ (fun b a => f a = .ok b) bs as := by
  induction as generalizing bs with
  | nil => cases bs <;> simp [pure, Except.pure]
  | cons a as ih =>
    rw [List.mapM_cons, bind_eq_ok_iff, List.forall₂_cons_right_iff]
    simp only [bind_eq_ok_iff, ih, pure, Except.pure, Except.ok.injEq]
    constructor
    · rintro ⟨b, hb, bs', hbs', rfl⟩
      exact ⟨b, bs', hb, hbs', rfl⟩
    · rintro ⟨b, bs', hb, hbs', rfl⟩
      exact ⟨b, hb, bs', hbs', rfl⟩

private theorem failure?_mapM : failure? (as.mapM f) = as.findSome? fun a => failure? (f a) := by
  induction as with
  | nil => rfl
  | cons a as ih =>
    rw [List.mapM_cons, List.findSome?_cons, ← ih]
    cases f a with
    | error e => rfl
    | ok b => cases as.mapM f <;> rfl

theorem exists_mapM_eq_ok_iff : (∃ bs, as.mapM f = .ok bs) ↔ ∀ a ∈ as, ∃ b, f a = .ok b := by
  rw [← failure?_eq_none_iff, failure?_mapM, List.findSome?_eq_none_iff]
  simp only [failure?_eq_none_iff]

/-- The list fails as its first element that does. -/
theorem mapM_eq_error_iff {e : ε} : as.mapM f = .error e ↔
    ∃ before a after, as = before ++ a :: after ∧ f a = .error e ∧ ∀ a ∈ before, ∃ b, f a = .ok b := by
  rw [← failure?_eq_some_iff, failure?_mapM, List.findSome?_eq_some_iff]
  simp only [failure?_eq_some_iff, failure?_eq_none_iff]

/-- A row in which no element fails gives the values of all. -/
theorem mapM_map_eq_pure {m : Type → Type} [Monad m] [LawfulMonad m] {α β γ : Type} {f : β → m γ} {g : α → β}
    {h : α → γ} {as : List α} (hf : ∀ a ∈ as, f (g a) = pure (h a)) : (as.map g).mapM f = pure (as.map h) := by
  induction as with
  | nil => rfl
  | cons a as ih =>
    obtain ⟨ha, has⟩ := List.forall_mem_cons.mp hf
    rw [List.map_cons, List.mapM_cons, ha, pure_bind, ih has, pure_bind, List.map_cons]

end Placeholder
