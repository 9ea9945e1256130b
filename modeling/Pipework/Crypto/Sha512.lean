import Pipework.Text.Utf8

set_option autoImplicit false

/-! # SHA-512 and SHA-384

The message is padded to whole blocks of 128 bytes, each block is read as sixteen 64-bit words, and
every block is mixed into a state of eight words. The rounds of a block slide a window of sixteen
words over its message schedule, so the state, the window and the constants still to come are all a
round needs. -/

namespace Pipework.Sha512

/-! ## State -/

/-- The eight words that a message is mixed into. -/
structure State where
  a : UInt64
  b : UInt64
  c : UInt64
  d : UInt64
  e : UInt64
  f : UInt64
  g : UInt64
  h : UInt64
deriving DecidableEq

/-- The bytes of a word, the most significant first. -/
def wordBytes (w : UInt64) : Bytes :=
  [(w >>> 56).toUInt8, (w >>> 48).toUInt8, (w >>> 40).toUInt8, (w >>> 32).toUInt8,
    (w >>> 24).toUInt8, (w >>> 16).toUInt8, (w >>> 8).toUInt8, w.toUInt8]

/-- The bytes of a state. -/
def State.toBytes (s : State) : Bytes :=
  [s.a, s.b, s.c, s.d, s.e, s.f, s.g, s.h].flatMap wordBytes

/-- The state before the first block of SHA-512. -/
def initial : State :=
  ⟨0x6A09E667F3BCC908, 0xBB67AE8584CAA73B, 0x3C6EF372FE94F82B, 0xA54FF53A5F1D36F1,
    0x510E527FADE682D1, 0x9B05688C2B3E6C1F, 0x1F83D9ABFB41BD6B, 0x5BE0CD19137E2179⟩

/-- The state before the first block of SHA-384. -/
def initial384 : State :=
  ⟨0xCBBB9D5DC1059ED8, 0x629A292A367CD507, 0x9159015A3070DD17, 0x152FECD8F70E5939,
    0x67332667FFC00B31, 0x8EB44A8768581511, 0xDB0C2E0D64F98FA7, 0x47B5481DBEFA4FA4⟩

/-! ## Rounds -/

/-- The constants of the rounds. -/
def roundConstants : List UInt64 :=
  [0x428A2F98D728AE22, 0x7137449123EF65CD, 0xB5C0FBCFEC4D3B2F, 0xE9B5DBA58189DBBC,
   0x3956C25BF348B538, 0x59F111F1B605D019, 0x923F82A4AF194F9B, 0xAB1C5ED5DA6D8118,
   0xD807AA98A3030242, 0x12835B0145706FBE, 0x243185BE4EE4B28C, 0x550C7DC3D5FFB4E2,
   0x72BE5D74F27B896F, 0x80DEB1FE3B1696B1, 0x9BDC06A725C71235, 0xC19BF174CF692694,
   0xE49B69C19EF14AD2, 0xEFBE4786384F25E3, 0x0FC19DC68B8CD5B5, 0x240CA1CC77AC9C65,
   0x2DE92C6F592B0275, 0x4A7484AA6EA6E483, 0x5CB0A9DCBD41FBD4, 0x76F988DA831153B5,
   0x983E5152EE66DFAB, 0xA831C66D2DB43210, 0xB00327C898FB213F, 0xBF597FC7BEEF0EE4,
   0xC6E00BF33DA88FC2, 0xD5A79147930AA725, 0x06CA6351E003826F, 0x142929670A0E6E70,
   0x27B70A8546D22FFC, 0x2E1B21385C26C926, 0x4D2C6DFC5AC42AED, 0x53380D139D95B3DF,
   0x650A73548BAF63DE, 0x766A0ABB3C77B2A8, 0x81C2C92E47EDAEE6, 0x92722C851482353B,
   0xA2BFE8A14CF10364, 0xA81A664BBC423001, 0xC24B8B70D0F89791, 0xC76C51A30654BE30,
   0xD192E819D6EF5218, 0xD69906245565A910, 0xF40E35855771202A, 0x106AA07032BBD1B8,
   0x19A4C116B8D2D0C8, 0x1E376C085141AB53, 0x2748774CDF8EEB99, 0x34B0BCB5E19B48A8,
   0x391C0CB3C5C95A63, 0x4ED8AA4AE3418ACB, 0x5B9CCA4F7763E373, 0x682E6FF3D6B2B8A3,
   0x748F82EE5DEFB2FC, 0x78A5636F43172F60, 0x84C87814A1F0AB72, 0x8CC702081A6439EC,
   0x90BEFFFA23631E28, 0xA4506CEBDE82BDE9, 0xBEF9A3F7B2C67915, 0xC67178F2E372532B,
   0xCA273ECEEA26619C, 0xD186B8C721C0C207, 0xEADA7DD6CDE0EB1E, 0xF57D4F7FEE6ED178,
   0x06F067AA72176FBA, 0x0A637DC5A2C898A6, 0x113F9804BEF90DAE, 0x1B710B35131C471B,
   0x28DB77F523047D84, 0x32CAAB7B40C72493, 0x3C9EBE0A15C9BEBC, 0x431D67C49C100D4C,
   0x4CC5D4BECB3E42B6, 0x597F299CFC657E2A, 0x5FCB6FAB3AD6FAEC, 0x6C44198C4A475817]

/-- `x` rotated to the right by `n` bits, `n` between one and 64 less one. -/
@[inline] def rotateRight (x n : UInt64) : UInt64 := x >>> n ||| x <<< (64 - n)

/-- The rounds for the constants still to come, on the window and the state they meet. -/
def rounds (w0 w1 w2 w3 w4 w5 w6 w7 w8 w9 w10 w11 w12 w13 w14 w15 a b c d e f g h : UInt64) :
    List UInt64 → State
  | [] => ⟨a, b, c, d, e, f, g, h⟩
  | k :: ks =>
    let choice := (e &&& f) ^^^ (~~~e &&& g)
    let majority := (a &&& b) ^^^ (a &&& c) ^^^ (b &&& c)
    let t := h + (rotateRight e 14 ^^^ rotateRight e 18 ^^^ rotateRight e 41) + choice + k + w0
    let u := (rotateRight a 28 ^^^ rotateRight a 34 ^^^ rotateRight a 39) + majority
    let next := (rotateRight w14 19 ^^^ rotateRight w14 61 ^^^ w14 >>> 6) + w9 +
      (rotateRight w1 1 ^^^ rotateRight w1 8 ^^^ w1 >>> 7) + w0
    rounds w1 w2 w3 w4 w5 w6 w7 w8 w9 w10 w11 w12 w13 w14 w15 next
      (t + u) a b c (d + t) e f g ks

/-- `s` after a block of the words `w0` to `w15`. -/
def compress (s : State) (w0 w1 w2 w3 w4 w5 w6 w7 w8 w9 w10 w11 w12 w13 w14 w15 : UInt64) :
    State :=
  let r := rounds w0 w1 w2 w3 w4 w5 w6 w7 w8 w9 w10 w11 w12 w13 w14 w15
    s.a s.b s.c s.d s.e s.f s.g s.h roundConstants
  ⟨s.a + r.a, s.b + r.b, s.c + r.c, s.d + r.d, s.e + r.e, s.f + r.f, s.g + r.g, s.h + r.h⟩

/-! ## Messages -/

/-- The words that `bytes` spell, the most significant byte of each first; fewer bytes than a word
    at the end are dropped. -/
def words : Bytes → List UInt64
  | b0 :: b1 :: b2 :: b3 :: b4 :: b5 :: b6 :: b7 :: rest =>
    (b0.toUInt64 <<< 56 ||| b1.toUInt64 <<< 48 ||| b2.toUInt64 <<< 40 ||| b3.toUInt64 <<< 32 |||
      b4.toUInt64 <<< 24 ||| b5.toUInt64 <<< 16 ||| b6.toUInt64 <<< 8 ||| b7.toUInt64) :: words rest
  | _ => []

/-- `s` after the blocks that `words` make up. -/
def absorb (s : State) : List UInt64 → State
  | w0 :: w1 :: w2 :: w3 :: w4 :: w5 :: w6 :: w7 :: w8 :: w9 :: w10 :: w11 :: w12 :: w13 :: w14 ::
      w15 :: rest =>
    absorb (compress s w0 w1 w2 w3 w4 w5 w6 w7 w8 w9 w10 w11 w12 w13 w14 w15) rest
  | _ => s

/-- What stands behind a message of `length` bytes to fill its last block: a one bit, zeros, and the
    length in bits in 16 bytes. -/
def padding (length : Nat) : Bytes :=
  (0x80 : UInt8) :: List.replicate ((239 - length % 128) % 128) 0 ++
    (List.range 16).map fun i => UInt8.ofNat ((8 * length) >>> (8 * (15 - i)))

/-- `s`, reached after `before` bytes in whole blocks, after `message` and its padding. -/
def finish (s : State) (before : Nat) (message : Bytes) : State :=
  absorb s (words (message ++ padding (before + message.length)))

/-- The SHA-512 digest of `message`. -/
def digest (message : Bytes) : Bytes := (finish initial 0 message).toBytes

/-- The SHA-384 digest of `message`: the first six words of a run from its own start. -/
def digest384 (message : Bytes) : Bytes := (finish initial384 0 message).toBytes.take 48

end Pipework.Sha512
