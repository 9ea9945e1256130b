import Pipework.Codec.Hex

set_option autoImplicit false

/-! # Percent-encoding

Bytes as they stand in URLs. `Percent.chunks` leaves letters, digits and `_ . - ~` and writes every
other byte as an escape of two uppercase digits; `Percent.encode` puts the characters back that it
is told to leave as well. `Percent.decode` asks for whole escapes first, then replaces them by their
bytes and takes the result as UTF-8. -/

namespace Pipework.Percent

/-! ## Writing -/

/-- A byte that is never escaped. -/
def isUnreserved (byte : UInt8) : Bool :=
  let c := Char.ofNat byte.toNat
  c.isAlphanum || c == '_' || c == '.' || c == '-' || c == '~'

/-- The escape of a byte. -/
def escape (byte : UInt8) : List Char := '%' :: Hex.pair true byte

/-- The characters of ASCII bytes. -/
def literals (bytes : Bytes) : List Char := bytes.map fun byte => Char.ofNat byte.toNat

/-- `bytes` in chunks: runs of unreserved bytes as they are, and an escape for each other byte. -/
def chunks (bytes : Bytes) : List (List Char) :=
  match bytes with
  | [] => []
  | byte :: rest =>
    if isUnreserved byte then
      literals (byte :: rest.takeWhile isUnreserved) :: chunks (rest.dropWhile isUnreserved)
    else escape byte :: chunks rest
termination_by bytes.length
decreasing_by
  · have := (List.dropWhile_suffix isUnreserved (l := rest)).length_le
    simp only [List.length_cons]
    omega
  · simp only [List.length_cons]
    omega

/-- The byte of a chunk that is an escape. -/
def escaped? : List Char → Option UInt8
  | ['%', high, low] => do
    return UInt8.ofNat (16 * (← Hex.digitValue? high) + (← Hex.digitValue? low))
  | _ => none

/-- A chunk, the escape of a byte in `safe` being undone. -/
def restore (safe : Bytes) (chunk : List Char) : List Char :=
  match escaped? chunk with
  | some byte => if byte ∈ safe then [Char.ofNat byte.toNat] else chunk
  | none => chunk

/-- `bytes` with everything escaped but unreserved bytes and ASCII characters of `safe`. -/
def encode (safe : String) (bytes : Bytes) : List Char :=
  match (Utf8.encode safe).filter (· < 128) with
  | [] => (chunks bytes).flatten
  | safe => (chunks bytes).flatMap (restore safe)

/-! ## Reading -/

/-- Why a text cannot be decoded. -/
inductive Error
  /-- The percent sign at this byte is not followed by two hexadecimal digits. -/
  | incompleteEscape (offset : Nat)
  /-- The decoded bytes are UTF-8 only so far. -/
  | notUtf8 (validUpTo : Nat)
deriving DecidableEq, Repr

/-- The value of a hexadecimal digit given as a byte. -/
def hexValue? (byte : UInt8) : Option Nat := Hex.digitValue? (Char.ofNat byte.toNat)

/-- The offset of the first percent sign that starts no escape; `offset` counts the bytes before. -/
def brokenEscape? (offset : Nat) : Bytes → Option Nat
  | [] => none
  | byte :: rest =>
    if byte = 0x25 then
      match rest with
      | high :: low :: rest =>
        if (hexValue? high).isSome && (hexValue? low).isSome then brokenEscape? (offset + 3) rest
        else some offset
      | _ => some offset
    else brokenEscape? (offset + 1) rest

/-- `bytes` with every escape replaced by its byte; a percent sign that starts none is left. -/
def unescape : Bytes → Bytes
  | [] => []
  | byte :: rest =>
    if byte = 0x25 then
      match rest with
      | high :: low :: more =>
        match hexValue? high, hexValue? low with
        | some high, some low => UInt8.ofNat (16 * high + low) :: unescape more
        | _, _ => byte :: unescape (high :: low :: more)
      | rest => byte :: unescape rest
    else byte :: unescape rest

/-- The text that `text` encodes. Escapes are checked before the bytes they spell. -/
def decode (text : String) : Except Error String :=
  let bytes := Utf8.encode text
  match brokenEscape? 0 bytes with
  | some offset => .error (.incompleteEscape offset)
  | none =>
    match Utf8.decode (unescape bytes) with
    | .error validUpTo => .error (.notUtf8 validUpTo)
    | .ok decoded => .ok decoded

end Pipework.Percent
