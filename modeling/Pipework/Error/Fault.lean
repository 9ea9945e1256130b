import Pipework.Codec.Base64
import Pipework.Codec.Charset
import Pipework.Codec.Octet
import Pipework.Codec.Percent
import Pipework.Error.Transform
import Pipework.Json.Position
import Pipework.Value.Basic

set_option autoImplicit false

/-! # Faults of the built-in transforms

A `Fault` is the cause of a built-in transform's failure. The type is closed: besides the kinds of
values and the parameters that the catalogue knows, a fault carries numbers only, so no wording of
one (`Fault.toError`) can show a value, an argument or a key. -/

namespace Pipework

/-! ## Arguments -/

/-- The parameters of the built-in transforms. -/
inductive Parameter
  | encoding
  | separator
  | bytesPerBlock
  | upper
  | safe
  | indent
  | algorithm
  | length
  | iterations
  | salt
  | key
  | associated
  | nonce
  | secret
deriving DecidableEq, Repr

namespace Parameter

/-- The name a parameter is bound by. -/
def name : Parameter → String
  | encoding => "encoding"
  | separator => "sep"
  | bytesPerBlock => "bytes_per_block"
  | upper => "upper"
  | safe => "safe"
  | indent => "indent"
  | algorithm => "algorithm"
  | length => "length"
  | iterations => "iterations"
  | salt => "salt"
  | key => "key"
  | associated => "aad"
  | nonce => "nonce"
  | secret => "secret"

/-- The position a parameter is bound at. -/
def index : Parameter → Nat
  | encoding | separator | safe | indent | algorithm | length | key | secret => 0
  | bytesPerBlock | iterations | associated => 1
  | upper | salt | nonce => 2

end Parameter

/-- Why an argument is of no use. -/
inductive ArgumentError
  /-- It is needed and not bound. -/
  | missing
  | notText (found : Kind)
  | notBytes (found : Kind)
  | notInt (found : Kind)
  | notBool (found : Kind)
  /-- A count is below zero. -/
  | negative
  /-- A number does not fit 32 bits. -/
  | beyond32Bits
  | unknownCharset
  | unknownAlgorithm
  /-- A derived key would be empty or longer than this many bytes. -/
  | badLength (limit : Nat)
  | noIterations
  /-- A cipher key has this many bytes. -/
  | badKey (found : Nat)
  /-- A nonce does not have the first number of bytes but the second. -/
  | badNonce (expected found : Nat)
deriving DecidableEq, Repr

/-- The failure that the argument `name` causes. -/
def ArgumentError.toError (name : String) : ArgumentError → TransformError
  | missing => .missingArgument name
  | notText found => .invalidArgument name s!"expected text, found {found.name}"
  | notBytes found => .invalidArgument name s!"expected bytes, found {found.name}"
  | notInt found => .invalidArgument name s!"expected int, found {found.name}"
  | notBool found => .invalidArgument name s!"expected bool, found {found.name}"
  | negative => .invalidArgument name "expected a non-negative integer"
  | beyond32Bits => .invalidArgument name "expected an integer in 0..=4294967295"
  | unknownCharset => .invalidArgument name "expected one of utf8, ascii, latin1"
  | unknownAlgorithm => .invalidArgument name "expected one of sha256, sha384, sha512"
  | badLength limit => .invalidArgument name s!"expected 1 to {limit} bytes"
  | noIterations => .invalidArgument name "expected at least one iteration"
  | badKey found => .invalidArgument name s!"expected a 16 or 32 byte key, found {found} bytes"
  | badNonce expected found => .invalidArgument name s!"expected {expected} bytes, found {found}"

/-! ## Input -/

/-- What a transform accepts. -/
inductive Expected
  | text
  | bytes
  | textOrBytes
  | json
  | sealedBox
  | scalar
  | int
  | intList
  | envelope
deriving DecidableEq, Repr

/-- The name of what is accepted. -/
def Expected.name : Expected → String
  | text => "text"
  | bytes => "bytes"
  | textOrBytes => "text or bytes"
  | json => "JSON-serializable value"
  | sealedBox => "sealed box"
  | scalar => "text, bytes, number or bool"
  | int => "int"
  | intList => "list of integers"
  | envelope => "secret envelope"

/-- The fields of a sealed box in its map form. -/
inductive BoxField
  | nonce
  | associated
  | ciphertext
  | tag
deriving DecidableEq, Repr

/-- The key of a field. -/
def BoxField.key : BoxField → String
  | nonce => "nonce"
  | associated => "aad"
  | ciphertext => "ciphertext"
  | tag => "tag"

/-- Why a map is no sealed box, or a sealed box cannot be opened. -/
inductive BoxError
  | missing (field : BoxField)
  | notBase64 (field : BoxField)
  | wrongKind (field : BoxField) (found : Kind)
  /-- The nonce does not have the first number of bytes but the second. -/
  | nonceLength (expected found : Nat)
  /-- The tag does not have the first number of bytes but the second. -/
  | tagLength (expected found : Nat)
deriving DecidableEq, Repr

/-- The reason in words. -/
def BoxError.reason : BoxError → String
  | missing field => s!"missing field '{field.key}'"
  | notBase64 field => s!"field '{field.key}' is not valid base64"
  | wrongKind field found => s!"field '{field.key}' must be text or bytes, found {found.name}"
  | nonceLength expected found => s!"nonce must be {expected} bytes, found {found}"
  | tagLength expected found => s!"tag must be {expected} bytes, found {found}"

/-- The parts of a secret envelope. -/
inductive EnvelopePart
  | parameters
  | salt
  | iv
  | tag
  | data
deriving DecidableEq, Repr

/-- The name of a part. -/
def EnvelopePart.name : EnvelopePart → String
  | parameters => "ep"
  | salt => "salt"
  | iv => "iv"
  | tag => "tag"
  | data => "data"

/-- Why a map is no secret envelope. -/
inductive EnvelopeError
  | missingText (part : EnvelopePart)
  | parameterCount (expected found : Nat)
  | roundsNotNumber
  | roundsOutOfRange (least most : Nat)
  | notBase64 (part : EnvelopePart)
  | wrongLength (part : EnvelopePart) (expected found : Nat)
deriving DecidableEq, Repr

/-- The reason in words. -/
def EnvelopeError.reason : EnvelopeError → String
  | missingText part => s!"missing text field '{part.name}'"
  | parameterCount expected found => s!"expected {expected} parameters, found {found}"
  | roundsNotNumber => "round count is not an integer"
  | roundsOutOfRange least most => s!"round count outside {least}..={most}"
  | notBase64 part => s!"'{part.name}' is not valid base64"
  | wrongLength part expected found => s!"{part.name} must be {expected} bytes, found {found}"

/-! ## Reasons of the codecs -/

/-- The reason in words. -/
def Hex.Error.reason : Hex.Error → String
  | .oddLength => "odd number of digits"
  | .invalidDigit offset => s!"invalid digit at offset {offset}"

/-- The reason in words. -/
def Base64.Error.reason : Base64.Error → String
  | .invalidSymbol offset => s!"invalid symbol at offset {offset}"
  | .invalidLength => "invalid length"
  | .invalidPadding => "invalid padding"
  | .invalidTrailing offset => s!"invalid trailing symbol at offset {offset}"

/-- The reason in words. -/
def Percent.Error.reason : Percent.Error → String
  | .incompleteEscape offset => s!"incomplete escape at offset {offset}"
  | .notUtf8 validUpTo => s!"decoded bytes are not UTF-8 (valid up to byte {validUpTo})"

/-- The reason in words. -/
def Octet.Error.reason : Octet.Error → String
  | .wrongLength characters => s!"expected 8 binary digits, found {characters} characters"
  | .nonBinary offset => s!"non-binary digit at offset {offset}"

/-- The reason in words. -/
def Json.ParseError.reason (e : Json.ParseError) : String :=
  (if e.isEarly then "Eof" else "Syntax") ++ s!" error at line {e.line} column {e.column}"

/-- The name of a character set in messages. -/
def Charset.label : Charset → String
  | .utf8 => "utf-8"
  | .ascii => "ascii"
  | .latin1 => "latin-1"

/-- Why bytes do not decode, `offset` being where they stop being well formed. -/
def Charset.reason (charset : Charset) (offset : Nat) : String :=
  match charset with
  | .utf8 => s!"invalid sequence at byte offset {offset}"
  | .ascii | .latin1 => s!"non-ascii byte at offset {offset}"

/-! ## Faults -/

/-- The cause of a built-in transform's failure. -/
inductive Fault
  | wrongKind (expected : Expected) (found : Kind)
  | argument (parameter : Parameter) (error : ArgumentError)
  /-- A floating-point number that JSON cannot write. -/
  | nonFinite
  | json (error : Json.ParseError)
  | hex (error : Hex.Error)
  | base64 (error : Base64.Error)
  | percent (error : Percent.Error)
  | octet (error : Octet.Error)
  /-- The bytes from this offset on are not text in the character set. -/
  | undecodable (charset : Charset) (offset : Nat)
  /-- The character after this many others has no byte in the character set. -/
  | unencodable (charset : Charset) (offset : Nat)
  /-- An integer is not a byte. -/
  | notByte
  /-- The integer at this index is not a byte. -/
  | notByteAt (index : Nat)
  | box (error : BoxError)
  | envelope (error : EnvelopeError)
  /-- A tag does not vouch for a ciphertext. -/
  | authentication
deriving DecidableEq, Repr

/-- The failure that a fault causes. -/
def Fault.toError : Fault → TransformError
  | wrongKind expected found => .type expected.name found.name
  | argument parameter error => error.toError parameter.name
  | nonFinite => .format "json" "non-finite floats have no JSON representation"
  | json error => .format "json" error.reason
  | hex error => .format "hex" error.reason
  | base64 error => .format "base64" error.reason
  | percent error => .format "url" error.reason
  | octet error => .format "octet" error.reason
  | undecodable charset offset => .format charset.label (charset.reason offset)
  | unencodable charset offset =>
    .invalidValue s!"character at offset {offset} is not representable in {charset.label}"
  | notByte => .invalidValue "octets represent 0 to 255 only"
  | notByteAt index => .invalidValue s!"element {index} is out of byte range"
  | box error => .format "sealed box" error.reason
  | envelope error => .format "secret envelope" error.reason
  | authentication => .authentication

end Pipework
