import Placeholder.Proofs.Stability

/-!
What the passes report. Their events are those of the tokens in order, up to the first that is refused, and
after the last token a summary, whose numbers are those of the tokens and the bindings.
-/
namespace Placeholder

variable {α β : Type}

namespace Rule

variable {rule : Rule β} {ps : List (Token × Nat)}

end Rule

namespace Token

section Resolution

variable (env : Environment α) (n : Nat) (ts : List Token) {t : Token}

end Resolution

section Expansion

variable (left : List (Binding α)) (ts : List Token) {t : Token}

end Expansion

end Token

end Placeholder
