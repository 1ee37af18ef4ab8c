import Placeholder.Event

/-! Results that come with the events of the work, which stay when the work fails. -/
namespace Placeholder

/-- The events of some work, in order, and how it ended. -/
structure Traced (ε α : Type) where
  events : List Event
  result : Except ε α

namespace Traced

variable {ε ε' α β : Type}

def ofExcept (result : Except ε α) : Traced ε α :=
  ⟨[], result⟩

def emit (event : Event) : Traced ε Unit :=
  ⟨[event], .ok ()⟩

def fail (error : ε) : Traced ε α :=
  ofExcept (.error error)

/-- One piece of work after another. What fails is not followed by anything. -/
def andThen (work : Traced ε α) (next : α → Traced ε β) : Traced ε β :=
  match work.result with
  | .ok a => ⟨work.events ++ (next a).events, (next a).result⟩
  | .error e => ⟨work.events, .error e⟩

instance : Monad (Traced ε) where
  pure a := ofExcept (.ok a)
  bind := andThen

theorem bind_of_ok {work : Traced ε α} {a : α} (h : work.result = .ok a) (next : α → Traced ε β) :
    work >>= next = ⟨work.events ++ (next a).events, (next a).result⟩ := by
  simp [bind, andThen, h]

theorem bind_of_error {work : Traced ε α} {e : ε} (h : work.result = .error e) (next : α → Traced ε β) :
    work >>= next = ⟨work.events, .error e⟩ := by
  simp [bind, andThen, h]

instance : LawfulMonad (Traced ε) :=
  .mk' _
    (fun work => by
      obtain ⟨events, _ | a⟩ := work <;> simp [Functor.map, andThen, ofExcept])
    (fun a next => by simp [bind, pure, andThen, ofExcept])
    (fun work next next' => by
      obtain ⟨events, e | a⟩ := work
      · simp [bind, andThen]
      · simp only [bind, andThen]
        cases (next a).result <;> simp)

def mapError (f : ε → ε') (work : Traced ε α) : Traced ε' α :=
  ⟨work.events, work.result.mapError f⟩

end Traced
end Placeholder
