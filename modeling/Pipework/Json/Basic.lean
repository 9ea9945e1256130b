import Pipework.Binary64
import Pipework.Data.Dict

set_option autoImplicit false

/-! # JSON documents

The tree that JSON text stands for. Whole numbers keep their exact value as long as 64 bits hold it,
signed or unsigned; every other number is a finite floating-point number. Members of an object are
ordered by key. -/

namespace Pipework

/-- A JSON number. -/
inductive Number
  /-- A whole number that fits 64 bits with a sign. -/
  | int (n : Int64)
  /-- A whole number that fits 64 bits only without one. -/
  | large (n : UInt64) (beyond : 0x8000000000000000 ≤ n.toNat)
  /-- Any other number. -/
  | float (x : Binary64) (finite : x.isFinite = true)
deriving DecidableEq

/-- The number `n`. -/
def Number.ofUInt64 (n : UInt64) : Number :=
  if h : 0x8000000000000000 ≤ n.toNat then .large n h else .int n.toInt64

/-- A JSON document. -/
inductive Json
  | null
  | bool (b : Bool)
  | number (n : Number)
  | text (s : String)
  | array (items : List Json)
  | object (members : Entries Json none)

end Pipework
