import Pipework.Crypto.Gcm
import Pipework.Random
import Pipework.Transform.Parameter
import Pipework.Value.Json
import Pipework.Value.Render

set_option autoImplicit false

/-! # Authenticated encryption

Sealing turns bytes into a `SealedBox`, opening turns a box or its map form back. A box opens only
if its tag vouches for everything in it; a wrong key and any change to the box look the same. -/

namespace Pipework.Transform

/-- The cipher key that is bound; it has 16 or 32 bytes. -/
def cipherKey (args : Arguments) : Except Fault Aes.Key := do
  let bytes ← Parameter.key.bytes args
  if h : bytes.length = 16 ∨ bytes.length = 32 then return ⟨bytes, h⟩
  else .error (.argument .key (.badKey bytes.length))

/-- The first bytes of a source as a nonce. -/
def drawNonce (source : RandomSource) : Gcm.Nonce :=
  ⟨source.take Gcm.nonceLength, by simp [RandomSource.take]⟩

/-- The nonce that is bound, or a drawn one. -/
def boundNonce (source : RandomSource) (args : Arguments) : Except Fault Gcm.Nonce := do
  match ← Parameter.nonce.bytes? args with
  | none => return drawNonce source
  | some bytes =>
    if h : bytes.length = Gcm.nonceLength then return ⟨bytes, h⟩
    else .error (.argument .nonce (.badNonce Gcm.nonceLength bytes.length))

/-- Bytes or text sealed under a key, with associated data if it is bound. -/
def aeadEncrypt (source : RandomSource) (value : Value) (args : Arguments) :
    Except Fault Value := do
  let plaintext ← value.expectByteLike
  let key ← cipherKey args
  let associated := (← Parameter.associated.bytes? args).getD []
  let nonce ← boundNonce source args
  let (ciphertext, tag) := Gcm.sealed key nonce associated plaintext
  return .sealedBox { nonce := nonce.bytes, associated, ciphertext, tag }

/-- The plaintext of a box. -/
def aeadDecrypt (value : Value) (args : Arguments) : Except Fault Value := do
  let box ← SealedBox.ofValue value
  let key ← cipherKey args
  if hn : box.nonce.length = Gcm.nonceLength then
    if box.tag.length = Gcm.tagLength then
      match Gcm.opened key ⟨box.nonce, hn⟩ box.associated box.ciphertext box.tag with
      | some plaintext => return .bytes plaintext
      | none => .error .authentication
    else .error (.box (.tagLength Gcm.tagLength box.tag.length))
  else .error (.box (.nonceLength Gcm.nonceLength box.nonce.length))

end Pipework.Transform
