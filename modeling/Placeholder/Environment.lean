import Placeholder.Binding
import Placeholder.Value
import Std.Data.TreeMap

/-! The bindings of a query, by name and by position. -/
namespace Placeholder

/-- Named bindings, in the order of their names, and positional bindings. -/
structure Environment (α : Type) where
  named : Std.TreeMap String (Binding α)
  positionals : List (Binding α)

namespace Environment

variable {α : Type}

def empty : Environment α :=
  ⟨∅, []⟩

instance : Inhabited (Environment α) := ⟨empty⟩

def lookup? (env : Environment α) (name : String) : Option (Binding α) :=
  env.named[name]?

/-- Binds a name, in place of what it was bound to before. -/
def bindName (env : Environment α) (name : String) (binding : Binding α) : Environment α :=
  { env with named := env.named.insert name binding }

def bindNext (env : Environment α) (binding : Binding α) : Environment α :=
  { env with positionals := env.positionals ++ [binding] }

@[simp] theorem lookup?_empty (name : String) : (empty : Environment α).lookup? name = none := by
  simp [empty, lookup?]

@[simp] theorem lookup?_bindName (env : Environment α) (name other : String) (binding : Binding α) :
    (env.bindName name binding).lookup? other = if name = other then some binding else env.lookup? other := by
  simp [bindName, lookup?, Std.TreeMap.getElem?_insert]

@[simp] theorem lookup?_bindNext (env : Environment α) (name : String) (binding : Binding α) :
    (env.bindNext binding).lookup? name = env.lookup? name := rfl

@[simp] theorem positionals_bindName (env : Environment α) (name : String) (binding : Binding α) :
    (env.bindName name binding).positionals = env.positionals := rfl

@[simp] theorem positionals_bindNext (env : Environment α) (binding : Binding α) :
    (env.bindNext binding).positionals = env.positionals ++ [binding] := rfl

/-- Both bind the same names and as many positions, to values that agree. -/
def agrees (env env' : Environment Value) : Bool :=
  let same := Binding.agreesBy Value.agrees
  env.named.toList.isEqv env'.named.toList (fun (name, b) (name', b') => name == name' && same b b') &&
    env.positionals.isEqv env'.positionals same

end Environment
end Placeholder
