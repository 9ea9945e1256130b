import Pipework.Transform.Aead
import Pipework.Transform.Cast
import Pipework.Transform.Envelope
import Pipework.Transform.Keys
import Pipework.Transform.Notation
import Pipework.Transform.Octets

set_option autoImplicit false

/-! # The built-in transforms

The closed catalogue of transforms, each with its name. A built-in transform is a function of its
input, its arguments and the random bytes it may draw, and fails only with a `Fault`. -/

namespace Pipework

/-- The built-in transforms. -/
inductive Builtin
  | castToText
  | castToBytes
  | textToBytes
  | bytesToText
  | numbersToText
  | hexToBytes
  | bytesToHex
  | bytesToBase64
  | base64ToBytes
  | percentEncode
  | percentDecode
  | valueToJson
  | jsonToValue
  | intToOctet
  | octetToInt
  | bytesToInts
  | intsToBytes
  | hash
  | deriveKey
  | deriveKeyRecord
  | aeadEncrypt
  | aeadDecrypt
  | secretEncrypt
  | secretDecrypt
deriving DecidableEq, Repr

namespace Builtin

/-- What a transform does with a value, its arguments and the random bytes at hand. -/
def apply (builtin : Builtin) (source : RandomSource) (value : Value) (args : Arguments) :
    Except Fault Value :=
  match builtin with
  | castToText => Transform.castToText value args
  | castToBytes => Transform.castToBytes value args
  | textToBytes => Transform.textToBytes value args
  | bytesToText => Transform.bytesToText value args
  | numbersToText => .ok (Transform.numbersToText value)
  | hexToBytes => Transform.hexToBytes value
  | bytesToHex => Transform.bytesToHex value args
  | bytesToBase64 => Transform.bytesToBase64 value
  | base64ToBytes => Transform.base64ToBytes value
  | percentEncode => Transform.percentEncode value args
  | percentDecode => Transform.percentDecode value
  | valueToJson => Transform.valueToJson value args
  | jsonToValue => Transform.jsonToValue value
  | intToOctet => Transform.intToOctet value
  | octetToInt => Transform.octetToInt value
  | bytesToInts => Transform.bytesToInts value
  | intsToBytes => Transform.intsToBytes value
  | hash => Transform.hash value args
  | deriveKey => Transform.deriveKey source value args
  | deriveKeyRecord => Transform.deriveKeyRecord source value args
  | aeadEncrypt => Transform.aeadEncrypt source value args
  | aeadDecrypt => Transform.aeadDecrypt value args
  | secretEncrypt => Transform.secretEncrypt source value args
  | secretDecrypt => Transform.secretDecrypt value args

/-- How many random bytes are set aside for one application. -/
def draws : Builtin → Nat
  | deriveKey | deriveKeyRecord => Transform.saltLength
  | aeadEncrypt => Gcm.nonceLength
  | secretEncrypt => 8 + Envelope.saltLength + Gcm.nonceLength
  | _ => 0

end Builtin

end Pipework
