import Pipework.Text.Utf8

set_option autoImplicit false

/-! # SHA-256

The message is padded to whole blocks of 64 bytes, each block is read as sixteen 32-bit words, and
every block is mixed into a state of eight words. The rounds of a block slide a window of sixteen
words over its message schedule, so the state, the window and the constants still to come are all a
round needs. -/

namespace Pipework.Sha256

/-! ## State -/

/-- The eight words that a message is mixed into. -/
structure State where
  a : UInt32
  b : UInt32
  c : UInt32
  d : UInt32
  e : UInt32
  f : UInt32
  g : UInt32
  h : UInt32
deriving DecidableEq

/-- The bytes of a word, the most significant first. -/
def wordBytes (w : UInt32) : Bytes :=
  [(w >>> 24).toUInt8, (w >>> 16).toUInt8, (w >>> 8).toUInt8, w.toUInt8]

/-- The bytes of a state. -/
def State.toBytes (s : State) : Bytes :=
  [s.a, s.b, s.c, s.d, s.e, s.f, s.g, s.h].flatMap wordBytes

/-- The state before the first block. -/
def initial : State :=
  ⟨0x6A09E667, 0xBB67AE85, 0x3C6EF372, 0xA54FF53A, 0x510E527F, 0x9B05688C, 0x1F83D9AB, 0x5BE0CD19⟩

/-! ## Rounds -/

/-- The constants of the rounds. -/
def roundConstants : List UInt32 :=
  [0x428A2F98, 0x71374491, 0xB5C0FBCF, 0xE9B5DBA5, 0x3956C25B, 0x59F111F1, 0x923F82A4, 0xAB1C5ED5,
   0xD807AA98, 0x12835B01, 0x243185BE, 0x550C7DC3, 0x72BE5D74, 0x80DEB1FE, 0x9BDC06A7, 0xC19BF174,
   0xE49B69C1, 0xEFBE4786, 0x0FC19DC6, 0x240CA1CC, 0x2DE92C6F, 0x4A7484AA, 0x5CB0A9DC, 0x76F988DA,
   0x983E5152, 0xA831C66D, 0xB00327C8, 0xBF597FC7, 0xC6E00BF3, 0xD5A79147, 0x06CA6351, 0x14292967,
   0x27B70A85, 0x2E1B2138, 0x4D2C6DFC, 0x53380D13, 0x650A7354, 0x766A0ABB, 0x81C2C92E, 0x92722C85,
   0xA2BFE8A1, 0xA81A664B, 0xC24B8B70, 0xC76C51A3, 0xD192E819, 0xD6990624, 0xF40E3585, 0x106AA070,
   0x19A4C116, 0x1E376C08, 0x2748774C, 0x34B0BCB5, 0x391C0CB3, 0x4ED8AA4A, 0x5B9CCA4F, 0x682E6FF3,
   0x748F82EE, 0x78A5636F, 0x84C87814, 0x8CC70208, 0x90BEFFFA, 0xA4506CEB, 0xBEF9A3F7, 0xC67178F2]

/-- `x` rotated to the right by `n` bits, `n` between one and 32 less one. -/
@[inline] def rotateRight (x n : UInt32) : UInt32 := x >>> n ||| x <<< (32 - n)

/-- The rounds for the constants still to come, on the window and the state they meet. -/
def rounds (w0 w1 w2 w3 w4 w5 w6 w7 w8 w9 w10 w11 w12 w13 w14 w15 a b c d e f g h : UInt32) :
    List UInt32 → State
  | [] => ⟨a, b, c, d, e, f, g, h⟩
  | k :: ks =>
    let choice := (e &&& f) ^^^ (~~~e &&& g)
    let majority := (a &&& b) ^^^ (a &&& c) ^^^ (b &&& c)
    let t := h + (rotateRight e 6 ^^^ rotateRight e 11 ^^^ rotateRight e 25) + choice + k + w0
    let u := (rotateRight a 2 ^^^ rotateRight a 13 ^^^ rotateRight a 22) + majority
    let next := (rotateRight w14 17 ^^^ rotateRight w14 19 ^^^ w14 >>> 10) + w9 +
      (rotateRight w1 7 ^^^ rotateRight w1 18 ^^^ w1 >>> 3) + w0
    rounds w1 w2 w3 w4 w5 w6 w7 w8 w9 w10 w11 w12 w13 w14 w15 next
      (t + u) a b c (d + t) e f g ks

/-- `s` after a block of the words `w0` to `w15`. -/
def compress (s : State) (w0 w1 w2 w3 w4 w5 w6 w7 w8 w9 w10 w11 w12 w13 w14 w15 : UInt32) :
    State :=
  let r := rounds w0 w1 w2 w3 w4 w5 w6 w7 w8 w9 w10 w11 w12 w13 w14 w15
    s.a s.b s.c s.d s.e s.f s.g s.h roundConstants
  ⟨s.a + r.a, s.b + r.b, s.c + r.c, s.d + r.d, s.e + r.e, s.f + r.f, s.g + r.g, s.h + r.h⟩

/-! ## Messages -/

/-- The words that `bytes` spell, the most significant byte of each first; fewer bytes than a word
    at the end are dropped. -/
def words : Bytes → List UInt32
  | b0 :: b1 :: b2 :: b3 :: rest =>
    (b0.toUInt32 <<< 24 ||| b1.toUInt32 <<< 16 ||| b2.toUInt32 <<< 8 ||| b3.toUInt32) :: words rest
  | _ => []

/-- `s` after the blocks that `words` make up. -/
def absorb (s : State) : List UInt32 → State
  | w0 :: w1 :: w2 :: w3 :: w4 :: w5 :: w6 :: w7 :: w8 :: w9 :: w10 :: w11 :: w12 :: w13 :: w14 ::
      w15 :: rest =>
    absorb (compress s w0 w1 w2 w3 w4 w5 w6 w7 w8 w9 w10 w11 w12 w13 w14 w15) rest
  | _ => s

/-- What stands behind a message of `length` bytes to fill its last block: a one bit, zeros, and the
    length in bits in 8 bytes. -/
def padding (length : Nat) : Bytes :=
  (0x80 : UInt8) :: List.replicate ((119 - length % 64) % 64) 0 ++
    (List.range 8).map fun i => UInt8.ofNat ((8 * length) >>> (8 * (7 - i)))

/-- `s`, reached after `before` bytes in whole blocks, after `message` and its padding. -/
def finish (s : State) (before : Nat) (message : Bytes) : State :=
  absorb s (words (message ++ padding (before + message.length)))

/-- The SHA-256 digest of `message`. -/
def digest (message : Bytes) : Bytes := (finish initial 0 message).toBytes

end Pipework.Sha256
