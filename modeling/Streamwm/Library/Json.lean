import Mathlib.Data.Rat.Init
import Mathlib.Data.UInt

/-!
# JSON values

A JSON value as a program gets it from a parser, with the numbers in 64 bits where they fit,
and how a value that is not known to have a certain form is taken apart : each reading
answers `none` when the value is of another kind.
-/

namespace Json

/-- A number : unsigned where it fits, else signed where it fits, else a fraction. -/
inductive Number
  | posInt (n : UInt64)
  | negInt (n : Int64)
  | float (x : ℚ)

end Json

/-- A JSON value. The keys of an object are different. -/
inductive Json
  | null
  | bool (b : Bool)
  | number (n : Json.Number)
  | string (s : String)
  | array (elements : List Json)
  | object (members : List (String × Json))

namespace Json

/-- The member of an object under a key. -/
def get : Json → String → Option Json
  | object members, key => members.lookup key
  | _, _ => none

/-- A string. -/
def asStr : Json → Option String
  | string s => some s
  | _ => none

/-- An unsigned integer. -/
def asU64 : Json → Option UInt64
  | number (.posInt n) => some n
  | _ => none

end Json
