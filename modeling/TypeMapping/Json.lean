import TypeMapping.Number.Binary64

/-!
# JSON values

Numbers are told apart by how they are written: a numeral without fraction and exponent is an integer
if it fits into 64 bits, signed or unsigned; all others are floating point numbers.
-/

namespace TypeMapping

/-- A JSON value. -/
inductive Json
  | null
  | boolean (b : Bool)
  | integer (i : Int)
  | float (x : Binary64)
  | string (s : String)
  | array (items : List Json)
  /-- Members in the order in which they are written; the last one of a name counts. -/
  | object (members : List (String × Json))
  deriving Inhabited

namespace Json

/-- The value of the last member with that name. -/
def member? (name : String) : Json → Option Json
  | object members => (members.reverse.find? (·.1 = name)).map Prod.snd
  | _ => none

/-- The members that count, in increasing order of their names. -/
def sortedMembers (members : List (String × Json)) : List (String × Json) :=
  let last := members.reverse.foldl
    (fun kept m => if kept.any (·.1 = m.1) then kept else m :: kept) []
  last.mergeSort (·.1 ≤ ·.1)

end Json

end TypeMapping
