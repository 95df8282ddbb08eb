/-!
# JSON values
-/

namespace Stencil

inductive Json where
  | null
  | bool (value : Bool)
  /-- A number written as an integer that fits into 64 bits. -/
  | integer (value : Int)
  | float (value : Float)
  | string (value : String)
  | array (items : List Json)
  | object (members : List (String × Json))

end Stencil
