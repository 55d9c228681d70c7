import Tracing.Dict

/-!
# JSON values

Whole numbers and numbers with a fraction or an exponent are told apart, as the text they come from does.
Members of an object stand in the order of their names, each name once.
-/

namespace Tracing

/-- A JSON value. -/
inductive Json where
  | null
  | bool (b : Bool)
  | int (n : Int)
  | float (x : Float)
  | str (s : String)
  | arr (items : List Json)
  | obj (members : List (String × Json))
deriving Inhabited

namespace Json

/-- The member of an object with a given name. -/
def member? (name : String) : Json → Option Json
  | obj members => Entries.get? name members
  | _ => none

def str? : Json → Option String
  | str s => some s
  | _ => none

/-- The object with the given members; the last of equal names stays. -/
def ofMembers (members : List (String × Json)) : Json :=
  obj (members.foldl (fun ms m => Entries.insert m.1 m.2 ms) [])

end Json

end Tracing
