import Pipework.Crypto.Aes

set_option autoImplicit false

/-! # Authenticated encryption

AES in Galois/counter mode with nonces of twelve bytes and tags of sixteen. A plaintext is added bit
by bit to a keystream that the nonce starts, and the tag is a polynomial in the ciphertext and the
associated data, hidden by one more keystream block. Opening computes the tag of what it was given
and returns a plaintext only if the tags agree. -/

namespace Pipework.Gcm

open Aes (Block)

/-- The length of a nonce. -/
def nonceLength : Nat := 12

/-- The length of a tag. -/
def tagLength : Nat := 16

/-- A nonce. -/
structure Nonce where
  bytes : Bytes
  size : bytes.length = nonceLength

/-! ## Keystream -/

/-- The counter block with the counter `n`. -/
def Nonce.counter (nonce : Nonce) (n : UInt32) : Block :=
  match Block.ofBytes nonce.bytes with
  | b :: _ => { b with c3 := n }
  | [] => ⟨0, 0, 0, n⟩

/-- `count` blocks of keystream from the counter `n` on. -/
def keystream (cipher : Block → Block) (nonce : Nonce) (n : UInt32) : (count : Nat) → Bytes
  | 0 => []
  | count + 1 =>
    (cipher (nonce.counter n)).toBytes ++ keystream cipher nonce (n + 1) count

/-- `text` added bit by bit to the keystream, which gives the ciphertext of a plaintext and the
    plaintext of a ciphertext. -/
def addKeystream (cipher : Block → Block) (nonce : Nonce) (text : Bytes) : Bytes :=
  List.zipWith (· ^^^ ·) text (keystream cipher nonce 2 ((text.length + 15) / 16))

/-! ## Tags -/

/-- An element of the field of `2 ^ 128` elements, its coefficients from the top bit of `high`
    down. -/
structure Element where
  high : UInt64
  low : UInt64

/-- A block as a field element. -/
def Element.ofBlock (b : Block) : Element :=
  ⟨b.c0.toUInt64 <<< 32 ||| b.c1.toUInt64, b.c2.toUInt64 <<< 32 ||| b.c3.toUInt64⟩

/-- A field element as a block. -/
def Element.toBlock (e : Element) : Block :=
  ⟨(e.high >>> 32).toUInt32, e.high.toUInt32, (e.low >>> 32).toUInt32, e.low.toUInt32⟩

/-- The product, by `count` steps of shift and add: `x` gives its bits from the top, `v` is the
    other factor times a growing power of the indeterminate, and `z` the sum so far. -/
def multiplyFrom (xh xl vh vl zh zl : UInt64) : (count : Nat) → Element
  | 0 => ⟨zh, zl⟩
  | count + 1 =>
    let take := (0 : UInt64) - (xh >>> 63)
    let reduce := (0 : UInt64) - (vl &&& 1)
    multiplyFrom (xh <<< 1 ||| xl >>> 63) (xl <<< 1) (vh >>> 1 ^^^ (reduce &&& 0xE100000000000000))
      (vl >>> 1 ||| vh <<< 63) (zh ^^^ (take &&& vh)) (zl ^^^ (take &&& vl)) count

/-- The product of two field elements. -/
def multiply (x y : Element) : Element :=
  multiplyFrom x.high x.low y.high y.low 0 0 128

/-- The value at `h` of the polynomial with the coefficients `blocks`, the accumulator `y` before
    them. -/
def evaluate (h y : Element) : List Block → Element
  | [] => y
  | b :: rest =>
    let e := Element.ofBlock b
    evaluate h (multiply ⟨y.high ^^^ e.high, y.low ^^^ e.low⟩ h) rest

/-- The block that holds the lengths in bits of the associated data and the ciphertext. -/
def lengthsBlock (associated ciphertext : Bytes) : Block :=
  Element.toBlock ⟨UInt64.ofNat (8 * associated.length), UInt64.ofNat (8 * ciphertext.length)⟩

/-- The tag of a ciphertext and its associated data. -/
def tag (cipher : Block → Block) (nonce : Nonce) (associated ciphertext : Bytes) : Bytes :=
  let h := Element.ofBlock (cipher ⟨0, 0, 0, 0⟩)
  let blocks := Block.ofBytes associated ++ Block.ofBytes ciphertext ++
    [lengthsBlock associated ciphertext]
  ((evaluate h ⟨0, 0⟩ blocks).toBlock.xor (cipher (nonce.counter 1))).toBytes

/-! ## Sealing and opening -/

/-- The encryption of blocks under `key`. -/
def blockCipher (key : Aes.Key) : Block → Block := Aes.encryptBlock key.schedule

/-- The ciphertext of `plaintext` and the tag over it and `associated`. -/
def sealed (key : Aes.Key) (nonce : Nonce) (associated plaintext : Bytes) : Bytes × Bytes :=
  let cipher := blockCipher key
  let ciphertext := addKeystream cipher nonce plaintext
  (ciphertext, tag cipher nonce associated ciphertext)

/-- The plaintext of `ciphertext`, if `mark` is the tag over it and `associated`. -/
def opened (key : Aes.Key) (nonce : Nonce) (associated ciphertext mark : Bytes) : Option Bytes :=
  let cipher := blockCipher key
  if tag cipher nonce associated ciphertext = mark then some (addKeystream cipher nonce ciphertext)
  else none

end Pipework.Gcm
