import Pipework.Text.Utf8

set_option autoImplicit false

/-! # Base64

The standard alphabet with padding. `Base64.encode` writes three bytes as four symbols and pads the
last group; `Base64.decode` reads only what `encode` writes: padding is required and the bits that
the last symbol has to spare are zero. What a refusal says is worked out apart (`Base64.diagnose`),
on the bytes of the text. -/

namespace Pipework.Base64

/-! ## Symbols -/

/-- The symbol for a value below 64. -/
def symbol (value : Nat) : Char :=
  if value < 26 then Char.ofNat ('A'.toNat + value)
  else if value < 52 then Char.ofNat ('a'.toNat + (value - 26))
  else if value < 62 then Char.ofNat ('0'.toNat + (value - 52))
  else if value = 62 then '+' else '/'

/-- The value of a symbol. -/
def symbolValue? (c : Char) : Option Nat :=
  if 'A' ≤ c ∧ c ≤ 'Z' then some (c.toNat - 'A'.toNat)
  else if 'a' ≤ c ∧ c ≤ 'z' then some (c.toNat - 'a'.toNat + 26)
  else if '0' ≤ c ∧ c ≤ '9' then some (c.toNat - '0'.toNat + 52)
  else if c = '+' then some 62
  else if c = '/' then some 63
  else none

/-! ## Writing -/

/-- The symbols of `bytes`, the last group padded. -/
def encode : Bytes → List Char
  | [] => []
  | [a] =>
    let n := a.toNat * 16
    [symbol (n / 64), symbol (n % 64), '=', '=']
  | [a, b] =>
    let n := (a.toNat * 256 + b.toNat) * 4
    [symbol (n / 4096), symbol (n / 64 % 64), symbol (n % 64), '=']
  | a :: b :: c :: rest =>
    let n := (a.toNat * 256 + b.toNat) * 256 + c.toNat
    symbol (n / 262144) :: symbol (n / 4096 % 64) :: symbol (n / 64 % 64) :: symbol (n % 64) ::
      encode rest

/-! ## Reading -/

/-- Why a text is not base64. Offsets count bytes. -/
inductive Error
  /-- The byte there is no symbol, or padding where none may stand. -/
  | invalidSymbol (offset : Nat)
  /-- One symbol is left over after whole groups. -/
  | invalidLength
  /-- The last group is not padded to four. -/
  | invalidPadding
  /-- The symbol there has bits that no byte takes. -/
  | invalidTrailing (offset : Nat)
deriving DecidableEq, Repr

/-- The bytes that `chars` spell, if they are exactly what `encode` writes for them. -/
def decodeGroups : List Char → Option Bytes
  | [] => some []
  | [a, b, '=', '='] => do
    let a ← symbolValue? a
    let b ← symbolValue? b
    let n := a * 64 + b
    if n % 16 = 0 then return [UInt8.ofNat (n / 16)] else none
  | [a, b, c, '='] => do
    let a ← symbolValue? a
    let b ← symbolValue? b
    let c ← symbolValue? c
    let n := (a * 64 + b) * 64 + c
    if n % 4 = 0 then return [UInt8.ofNat (n / 1024), UInt8.ofNat (n / 4 % 256)] else none
  | a :: b :: c :: d :: rest => do
    let a ← symbolValue? a
    let b ← symbolValue? b
    let c ← symbolValue? c
    let d ← symbolValue? d
    let n := ((a * 64 + b) * 64 + c) * 64 + d
    let bytes ← decodeGroups rest
    return UInt8.ofNat (n / 65536) :: UInt8.ofNat (n / 256 % 256) :: UInt8.ofNat (n % 256) :: bytes
  | _ => none

/-- A byte that is a symbol. -/
def isSymbol (byte : UInt8) : Bool := (symbolValue? (Char.ofNat byte.toNat)).isSome

/-- The byte that pads the last group. -/
def padding : UInt8 := 0x3D

/-- What is wrong with the last eight bytes or fewer, which begin at `start`: `index` counts those
    seen, `symbols` the symbols among them, and `pad` is where padding began. -/
def diagnoseTail (start : Nat) : (index symbols : Nat) → (pad : Option Nat) → Bytes → Error
  | index, symbols, _, [] =>
    if index % 4 ≠ 0 then .invalidPadding else .invalidTrailing (start + symbols - 1)
  | index, symbols, pad, byte :: rest =>
    if byte = padding then
      if index % 4 < 2 then .invalidSymbol (start + pad.getD index)
      else diagnoseTail start (index + 1) symbols (some (pad.getD index)) rest
    else
      match pad with
      | some pad => .invalidSymbol (start + pad)
      | none =>
        if isSymbol byte then diagnoseTail start (index + 1) (symbols + 1) none rest
        else .invalidSymbol (start + index)

/-- What is wrong with `bytes`, which are not base64. A single byte left over is looked at first,
    then the bytes in order; padding is expected only among the last eight. -/
def diagnose (bytes : Bytes) : Error :=
  let count := bytes.length
  if count % 4 = 1 then
    match bytes.getLast? with
    | some last =>
      if last ≠ padding ∧ !isSymbol last then .invalidSymbol (count - 1) else .invalidLength
    | none => .invalidLength
  else
    let start := (count - 1) / 8 * 8
    match (bytes.take start).findIdx? fun byte => !isSymbol byte with
    | some offset => .invalidSymbol offset
    | none => diagnoseTail start 0 0 none (bytes.drop start)

/-- The bytes that `text` spells. -/
def decode (text : List Char) : Except Error Bytes :=
  match decodeGroups text with
  | some bytes => .ok bytes
  | none => .error (diagnose (Utf8.encode (String.ofList text)))

end Pipework.Base64
