import Pipework.Text.Utf8

set_option autoImplicit false

/-! # Character sets

The three ways in which text becomes bytes and back. UTF-8 writes every text; ASCII and Latin-1
write one byte for a character and refuse characters beyond their last code point. Offsets in
refusals count characters when writing and bytes when reading. -/

namespace Pipework

/-- A way to write text as bytes. -/
inductive Charset
  | utf8
  | ascii
  | latin1
deriving DecidableEq, Repr

namespace Charset

/-- The character set that `name` stands for; case does not matter, and an underscore is as good as
    a hyphen. -/
def ofName? (name : String) : Option Charset :=
  match String.ofList (name.toList.map fun c => if c = '_' then '-' else c.toLower) with
  | "utf8" | "utf-8" => some utf8
  | "ascii" | "us-ascii" => some ascii
  | "latin1" | "latin-1" | "iso-8859-1" | "iso8859-1" => some latin1
  | _ => none

/-- A character set that gives each character one byte and has `limit` as its last code point. -/
def narrowLimit? : Charset → Option Nat
  | utf8 => none
  | ascii => some 0x7F
  | latin1 => some 0xFF

/-- The bytes of `text`, or how many characters come before the first that has none. -/
def encode (charset : Charset) (text : String) : Except Nat Bytes :=
  match charset.narrowLimit? with
  | none => .ok (Utf8.encode text)
  | some limit =>
    match text.toList.findIdx? fun c => limit < c.toNat with
    | some offset => .error offset
    | none => .ok (text.toList.map fun c => UInt8.ofNat c.toNat)

/-- The text of `bytes`, or the length of the longest start that is well formed. -/
def decode (charset : Charset) (bytes : Bytes) : Except Nat String :=
  match charset.narrowLimit? with
  | none => Utf8.decode bytes
  | some limit =>
    match bytes.findIdx? fun byte => limit < byte.toNat with
    | some offset => .error offset
    | none => .ok (String.ofList (bytes.map fun byte => Char.ofNat byte.toNat))

end Charset

end Pipework
