import Pipework.Transform.Parameter
import Pipework.Value.Render

set_option autoImplicit false

/-! # Casts to text and bytes

The parameter `encoding` names the character set, UTF-8 if it is not bound; it is looked at before
the input. -/

namespace Pipework.Transform

/-- The character set that is bound. -/
def charset (args : Arguments) : Except Fault Charset := do
  let name := (← Parameter.encoding.text? args).getD "utf8"
  match Charset.ofName? name with
  | some charset => .ok charset
  | none => .error (.argument .encoding .unknownCharset)

/-- The bytes of `text`. -/
def encodeText (charset : Charset) (text : String) : Except Fault Bytes :=
  (charset.encode text).mapError (Fault.unencodable charset)

/-- The text of `bytes`. -/
def decodeBytes (charset : Charset) (bytes : Bytes) : Except Fault String :=
  (charset.decode bytes).mapError (Fault.undecodable charset)

/-- A scalar as text: text as it is, numbers and truth values in their usual form, bytes decoded. -/
def scalarText (charset : Charset) (value : Value) : Except Fault String :=
  match value with
  | .text s => .ok s
  | .int n => .ok (String.ofList (Decimal.intChars n.toInt))
  | .float x => .ok x.scalarText
  | .bool b => .ok (if b then "true" else "false")
  | .bytes b => decodeBytes charset b
  | other => .error (.wrongKind .scalar other.kind)

/-- Any scalar as text. -/
def castToText (value : Value) (args : Arguments) : Except Fault Value := do
  let charset ← charset args
  return .text (← scalarText charset value)

/-- Any scalar as bytes: bytes as they are, everything else as text that is encoded. -/
def castToBytes (value : Value) (args : Arguments) : Except Fault Value := do
  let charset ← charset args
  match value with
  | .bytes b => return .bytes b
  | other => return .bytes (← encodeText charset (← scalarText charset other))

/-- Text as bytes. -/
def textToBytes (value : Value) (args : Arguments) : Except Fault Value := do
  let charset ← charset args
  return .bytes (← encodeText charset (← value.expectText))

/-- Bytes as text. -/
def bytesToText (value : Value) (args : Arguments) : Except Fault Value := do
  let charset ← charset args
  return .text (← decodeBytes charset (← value.expectBytes))

/-- Numbers as text, everything else as it is. -/
def numbersToText (value : Value) : Value :=
  match value with
  | .int n => .text (String.ofList (Decimal.intChars n.toInt))
  | .float x => .text x.scalarText
  | other => other

end Pipework.Transform
