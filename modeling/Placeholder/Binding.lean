/-! What a caller supplies for a parameter: one value, or a list of values. -/
namespace Placeholder

/-- The binding of one parameter. -/
inductive Binding (α : Type)
  /-- One value for one placeholder. -/
  | scalar (value : α)
  /-- The values of a parenthesized list of placeholders. -/
  | sequence (values : List α)
deriving DecidableEq, Repr

namespace Binding

variable {α : Type}

def isSequence : Binding α → Bool
  | .scalar _ => false
  | .sequence _ => true

def scalar? : Binding α → Option α
  | .scalar value => some value
  | .sequence _ => none

def sequence? : Binding α → Option (List α)
  | .scalar _ => none
  | .sequence values => some values

/-- The values that remain once lists are expanded. -/
def values : Binding α → List α
  | .scalar value => [value]
  | .sequence values => values

/-- Both are single values, or lists of one length, and the values agree one by one. -/
def agreesBy (agrees : α → α → Bool) : Binding α → Binding α → Bool
  | .scalar v, .scalar w => agrees v w
  | .sequence vs, .sequence ws => vs.isEqv ws agrees
  | _, _ => false

end Binding
end Placeholder
