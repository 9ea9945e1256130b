import Pipework.Binary64
import Pipework.Data.Dict
import Pipework.Text.Utf8

set_option autoImplicit false

/-! # Values

A `Value` is what stages hand to each other; all of them share this one type, so any stage may
follow any other. A value has a `Kind`, which is all that error messages and logs ever show of it. -/

namespace Pipework

/-! ## Kinds -/

/-- The kinds of values. -/
inductive Kind
  | null
  | bool
  | int
  | float
  | text
  | bytes
  | list
  | map
  | sealedBox
deriving DecidableEq, Repr

/-- The name of a kind in messages. -/
def Kind.name : Kind → String
  | null => "null"
  | bool => "bool"
  | int => "int"
  | float => "float"
  | text => "text"
  | bytes => "bytes"
  | list => "list"
  | map => "map"
  | sealedBox => "sealed box"

/-! ## Sealed boxes -/

/-- What authenticated encryption produces: a ciphertext, the tag that vouches for it, and the two
    inputs that are needed again to open it. -/
structure SealedBox where
  nonce : Bytes
  associated : Bytes
  ciphertext : Bytes
  tag : Bytes
deriving DecidableEq

/-! ## Values -/

/-- A value on its way through a pipeline. -/
inductive Value
  | null
  | bool (b : Bool)
  | int (n : Int64)
  | float (x : Binary64)
  | text (s : String)
  | bytes (b : Bytes)
  | list (items : List Value)
  | map (entries : Entries Value none)
  | sealedBox (box : SealedBox)

namespace Value

/-- The kind of a value. -/
def kind : Value → Kind
  | null => .null
  | bool _ => .bool
  | int _ => .int
  | float _ => .float
  | text _ => .text
  | bytes _ => .bytes
  | list _ => .list
  | map _ => .map
  | sealedBox _ => .sealedBox

/-- A rough size: bytes of a text, a byte string or a ciphertext, items of a list or a map, one for
    other scalars. -/
def size : Value → Nat
  | null => 0
  | bool _ => 1
  | int _ => 1
  | float _ => 1
  | text s => s.utf8ByteSize
  | bytes b => b.length
  | list items => items.length
  | map entries => entries.size
  | sealedBox box => box.ciphertext.length

/-- The value is null. -/
def isNull : Value → Bool
  | null => true
  | _ => false

/-- The text of a text. -/
def text? : Value → Option String
  | text s => some s
  | _ => none

/-- The bytes of a byte string. -/
def bytes? : Value → Option Bytes
  | bytes b => some b
  | _ => none

/-- The number of an integer. -/
def int? : Value → Option Int64
  | int n => some n
  | _ => none

/-- A value as positional arguments: nothing for null, the items of a list, anything else alone. -/
def toPositional : Value → List Value
  | null => []
  | list items => items
  | value => [value]

/-! ## Comparison -/

mutual

/-- Two values are the same, floating-point numbers being compared as numbers. -/
def same : Value → Value → Bool
  | null, null => true
  | bool a, bool b => a == b
  | int a, int b => a == b
  | float a, float b => a.sameNumber b
  | text a, text b => a == b
  | bytes a, bytes b => a == b
  | list a, list b => sameItems a b
  | map a, map b => sameEntries a b
  | sealedBox a, sealedBox b => a == b
  | _, _ => false

/-- Two lists hold the same values. -/
def sameItems : List Value → List Value → Bool
  | [], [] => true
  | a :: as, b :: bs => a.same b && sameItems as bs
  | _, _ => false

/-- Two maps hold the same values under the same keys. -/
def sameEntries : {lo lo' : Option String} → Entries Value lo → Entries Value lo' → Bool
  | _, _, .nil, .nil => true
  | _, _, .cons k _ v rest, .cons k' _ v' rest' => k == k' && v.same v' && sameEntries rest rest'
  | _, _, _, _ => false

end

end Value

end Pipework
