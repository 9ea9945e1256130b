import Pipework.Text.Utf8

set_option autoImplicit false

/-! # Octets

A byte as eight binary digits, the most significant first. -/

namespace Pipework.Octet

/-- The eight digits of a byte. -/
def encode (byte : UInt8) : List Char :=
  [7, 6, 5, 4, 3, 2, 1, 0].map fun place => if byte.toNat.testBit place then '1' else '0'

/-- Why a text is not an octet. -/
inductive Error
  /-- It does not take eight bytes but has this many characters. -/
  | wrongLength (characters : Nat)
  /-- The byte there is not a binary digit. -/
  | nonBinary (offset : Nat)
deriving DecidableEq, Repr

/-- The value of binary digits, the first byte that is none being refused; `value` is that of the
    digits before, `offset` their number. -/
def decodeFrom (value offset : Nat) : Bytes → Except Error Nat
  | [] => .ok value
  | byte :: rest =>
    if byte = 0x30 then decodeFrom (2 * value) (offset + 1) rest
    else if byte = 0x31 then decodeFrom (2 * value + 1) (offset + 1) rest
    else .error (.nonBinary offset)

/-- The byte that `text` spells. -/
def decode (text : String) : Except Error UInt8 :=
  let bytes := Utf8.encode text
  if bytes.length = 8 then UInt8.ofNat <$> decodeFrom 0 0 bytes
  else .error (.wrongLength text.length)

end Pipework.Octet
