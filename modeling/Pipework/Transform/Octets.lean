import Pipework.Error.Fault
import Pipework.Value.Render

set_option autoImplicit false

/-! # Bytes as integers

Single bytes as eight binary digits, and byte strings as lists of integers. -/

namespace Pipework.Transform

/-- The byte that an integer is. -/
def byteOf (value : Value) : Except Fault UInt8 :=
  match value with
  | .int n =>
    if 0 ≤ n.toInt ∧ n.toInt < 256 then .ok (UInt8.ofNat n.toInt.toNat) else .error .notByte
  | other => .error (.wrongKind .int other.kind)

/-- The integer that a byte is. -/
def intOf (byte : UInt8) : Value := .int (Int64.ofNat byte.toNat)

/-- An integer from 0 to 255 as eight binary digits. -/
def intToOctet (value : Value) : Except Fault Value := do
  let byte ← byteOf value
  return .text (String.ofList (Octet.encode byte))

/-- Eight binary digits as an integer. -/
def octetToInt (value : Value) : Except Fault Value := do
  let text ← value.expectText
  return intOf (← (Octet.decode text).mapError Fault.octet)

/-- A byte string as a list of integers. -/
def bytesToInts (value : Value) : Except Fault Value := do
  let bytes ← value.expectBytes
  return .list (bytes.map intOf)

/-- The bytes that the integers of a list are, `index` of them coming before. -/
def bytesOfItems (index : Nat) : List Value → Except Fault Bytes
  | [] => .ok []
  | item :: rest =>
    match byteOf item with
    | .error .notByte => .error (.notByteAt index)
    | .error fault => .error fault
    | .ok byte => do return byte :: (← bytesOfItems (index + 1) rest)

/-- A list of integers as a byte string. -/
def intsToBytes (value : Value) : Except Fault Value :=
  match value with
  | .list items => do return .bytes (← bytesOfItems 0 items)
  | other => .error (.wrongKind .intList other.kind)

end Pipework.Transform
