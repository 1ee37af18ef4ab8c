import Std.Data.TreeMap

/-! JSON values. -/
namespace Placeholder

/-- A number: an integer of at most 64 bits with its exact value, or a real number. -/
inductive Json.Number
  | integer (n : Int)
  | real (x : Float)
deriving DecidableEq

/-- A JSON value. The members of an object stand in the order in which they are written. -/
inductive Json
  | null
  | bool (b : Bool)
  | number (n : Json.Number)
  | string (s : String)
  | array (elements : List Json)
  | object (members : List (String × Json))
deriving Inhabited

namespace Json

/-- The members in the order of their names. Of several with one name the last counts. -/
def fields (members : List (String × Json)) : Std.TreeMap String Json :=
  members.foldl (fun fields (name, value) => fields.insert name value) ∅

end Json
end Placeholder
