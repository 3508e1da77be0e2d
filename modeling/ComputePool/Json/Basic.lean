/-!
# JSON values

The form in which records leave and enter the pool. Integers and other numbers are kept apart: a
number written with a fraction or an exponent is no integer, whatever its value.
-/

namespace ComputePool

/-- A JSON value. -/
inductive Json where
  | null
  | bool (value : Bool)
  | int (value : Int)
  /-- A number written with a fraction or an exponent, as it is written. -/
  | decimal (literal : String)
  | str (value : String)
  | arr (items : List Json)
  /-- The fields in the order in which they are written. -/
  | obj (fields : List (String × Json))
deriving Inhabited, Repr

end ComputePool
