/-!
Values of JSON texts. Members keep their order and may repeat. Integers of 64 bits are kept apart
from all other numbers, which are doubles.
-/

namespace ImpedanceBench

inductive Json where
  | null
  | bool (b : Bool)
  | integer (n : Int)
  | real (x : Float)
  | string (s : String)
  | array (items : List Json)
  | object (members : List (String × Json))
  /-- Well-formed text whose value cannot be held: a number beyond the doubles, or a string or
  member name with half of a surrogate pair. -/
  | unreadable

namespace Json

/-- The value of the last member of that name. -/
def member? (name : String) : Json → Option Json
  | object ms => (ms.reverse.find? (·.1 == name)).map (·.2)
  | _ => none

end Json

end ImpedanceBench
