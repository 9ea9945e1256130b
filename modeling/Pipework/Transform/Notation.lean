import Pipework.Json.Parser
import Pipework.Transform.Parameter
import Pipework.Value.Render

set_option autoImplicit false

/-! # Notations for bytes and values

Bytes as hexadecimal text, as base64 or percent-encoded, and values as JSON. Each notation has a
writer and a reader, which refuses what is not in the notation. -/

namespace Pipework.Transform

/-! ## Hexadecimal text -/

/-- Hexadecimal text as bytes; blanks are ignored. -/
def hexToBytes (value : Value) : Except Fault Value := do
  let text ← value.expectText
  return .bytes (← (Hex.decode text.toList).mapError Fault.hex)

/-- Bytes as hexadecimal text, with a separator between blocks if one is bound. -/
def bytesToHex (value : Value) (args : Arguments) : Except Fault Value := do
  let bytes ← value.expectBytes
  let separator := (← Parameter.separator.text? args).getD ""
  let perBlock := (← Parameter.bytesPerBlock.nat? args).getD 1
  let upper := (← Parameter.upper.bool? args).getD false
  return .text (String.ofList (Hex.encodeBlocks upper separator.toList perBlock bytes))

/-! ## Base64 -/

/-- Bytes as base64. -/
def bytesToBase64 (value : Value) : Except Fault Value := do
  let bytes ← value.expectBytes
  return .text (String.ofList (Base64.encode bytes))

/-- Base64 as bytes; blanks at the end are ignored. -/
def base64ToBytes (value : Value) : Except Fault Value := do
  let text ← value.expectText
  return .bytes (← (Base64.decode (Text.trimEnd text.toList)).mapError Fault.base64)

/-! ## Percent-encoding -/

/-- Text or bytes percent-encoded; the slash is left unless other characters are bound. -/
def percentEncode (value : Value) (args : Arguments) : Except Fault Value := do
  let bytes ← value.expectByteLike
  let safe := (← Parameter.safe.text? args).getD "/"
  return .text (String.ofList (Percent.encode safe bytes))

/-- Percent-encoded text decoded. -/
def percentDecode (value : Value) : Except Fault Value := do
  let text ← value.expectText
  return .text (← (Percent.decode text).mapError Fault.percent)

/-! ## JSON -/

/-- A value as JSON text, laid out on lines if an indentation is bound. -/
def valueToJson (value : Value) (args : Arguments) : Except Fault Value := do
  let json ← value.toJson
  match ← Parameter.indent.nat? args with
  | none => return .text (json.render .compact)
  | some indent => return .text (json.render (.pretty indent))

/-- JSON text as a value. -/
def jsonToValue (value : Value) : Except Fault Value := do
  let text ← value.expectText
  return .ofJson (← (Json.parse text).mapError Fault.json)

end Pipework.Transform
