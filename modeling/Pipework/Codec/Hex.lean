import Pipework.Text.Blank
import Pipework.Text.Utf8

set_option autoImplicit false

/-! # Hexadecimal text

Bytes as pairs of hexadecimal digits. `Hex.encode` writes them, `Hex.encodeBlocks` sets a separator
between blocks of them, and `Hex.decode` reads digits of either case with blanks anywhere between
them. A refusal names the place of the offending character in the text as it was given. -/

namespace Pipework.Hex

/-! ## Digits -/

/-- The value of a hexadecimal digit of either case. -/
def digitValue? (c : Char) : Option Nat :=
  if '0' ≤ c ∧ c ≤ '9' then some (c.toNat - '0'.toNat)
  else if 'a' ≤ c ∧ c ≤ 'f' then some (c.toNat - 'a'.toNat + 10)
  else if 'A' ≤ c ∧ c ≤ 'F' then some (c.toNat - 'A'.toNat + 10)
  else none

/-- The digit for a value below sixteen. -/
def digit (upper : Bool) (value : Nat) : Char :=
  if value < 10 then Char.ofNat ('0'.toNat + value)
  else Char.ofNat ((if upper then 'A' else 'a').toNat + value - 10)

/-! ## Writing -/

/-- The two digits of a byte. -/
def pair (upper : Bool) (byte : UInt8) : List Char :=
  [digit upper (byte.toNat / 16), digit upper (byte.toNat % 16)]

/-- The digits of `bytes`. -/
def encode (upper : Bool) (bytes : Bytes) : List Char := bytes.flatMap (pair upper)

/-- `items` cut into blocks of `size + 1` from the left; only the last one may be shorter. -/
def blocks {α : Type} (size : Nat) (items : List α) : List (List α) :=
  match items with
  | [] => []
  | item :: rest => (item :: rest.take size) :: blocks size (rest.drop size)
termination_by items.length
decreasing_by
  simp only [List.length_drop, List.length_cons]
  omega

/-- The digits of `bytes` in blocks of `perBlock` bytes with `separator` between them; in one piece
    if there is nothing to set between blocks or blocks would be empty. -/
def encodeBlocks (upper : Bool) (separator : List Char) (perBlock : Nat) (bytes : Bytes) :
    List Char :=
  match separator, perBlock with
  | [], _ => encode upper bytes
  | _, 0 => encode upper bytes
  | separator, size + 1 => separator.intercalate ((blocks size bytes).map (encode upper))

/-! ## Reading -/

/-- Why a text is not hexadecimal. -/
inductive Error
  /-- Its digits do not pair up. -/
  | oddLength
  /-- The character at this byte is neither a digit nor a blank. -/
  | invalidDigit (offset : Nat)
deriving DecidableEq, Repr

/-- The bytes that `chars` spell, two digits each. -/
def decodePairs : List Char → Option Bytes
  | [] => some []
  | [_] => none
  | high :: low :: rest => do
    let high ← digitValue? high
    let low ← digitValue? low
    let bytes ← decodePairs rest
    return UInt8.ofNat (16 * high + low) :: bytes

/-- The byte offset of the first character with the property `p`. -/
def offsetOf (p : Char → Bool) : List Char → Nat
  | [] => 0
  | c :: rest => if p c then 0 else c.utf8Size + offsetOf p rest

/-- The bytes that `text` spells, blanks between digits ignored. An odd number of bytes is reported
    before any character that is no digit. -/
def decode (text : List Char) : Except Error Bytes :=
  let digits := text.filter fun c => !Text.isBlank c
  match decodePairs digits with
  | some bytes => .ok bytes
  | none =>
    if Utf8.byteLength digits % 2 = 1 then .error .oddLength
    else .error (.invalidDigit (offsetOf (fun c => !Text.isBlank c && (digitValue? c).isNone) text))

end Pipework.Hex
