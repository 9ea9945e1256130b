import Pipework.Text.Utf8

set_option autoImplicit false

/-! # AES

The block cipher with keys of 16 or 32 bytes. A block is four columns of four bytes, each column a
32-bit word with its first byte on top. -/

namespace Pipework.Aes

/-! ## Blocks -/

/-- A block of sixteen bytes, as four columns. -/
structure Block where
  c0 : UInt32
  c1 : UInt32
  c2 : UInt32
  c3 : UInt32
deriving DecidableEq

/-- The word with the given bytes, the first on top. -/
def word (b0 b1 b2 b3 : UInt8) : UInt32 :=
  b0.toUInt32 <<< 24 ||| b1.toUInt32 <<< 16 ||| b2.toUInt32 <<< 8 ||| b3.toUInt32

/-- The bytes of a word, the top one first. -/
def wordBytes (w : UInt32) : Bytes :=
  [(w >>> 24).toUInt8, (w >>> 16).toUInt8, (w >>> 8).toUInt8, w.toUInt8]

namespace Block

/-- The sixteen bytes of a block. -/
def toBytes (b : Block) : Bytes := [b.c0, b.c1, b.c2, b.c3].flatMap wordBytes

theorem length_toBytes (b : Block) : b.toBytes.length = 16 := rfl

/-- The blocks that `bytes` fill, the last one filled up with zeros. -/
def ofBytes : Bytes → List Block
  | b0 :: b1 :: b2 :: b3 :: b4 :: b5 :: b6 :: b7 :: b8 :: b9 :: b10 :: b11 :: b12 :: b13 :: b14 ::
      b15 :: rest =>
    ⟨word b0 b1 b2 b3, word b4 b5 b6 b7, word b8 b9 b10 b11, word b12 b13 b14 b15⟩ :: ofBytes rest
  | [] => []
  | short =>
    let byte (i : Nat) : UInt8 := short.getD i 0
    let column (i : Nat) := word (byte i) (byte (i + 1)) (byte (i + 2)) (byte (i + 3))
    [⟨column 0, column 4, column 8, column 12⟩]

/-- Two blocks added bit by bit. -/
def xor (x y : Block) : Block := ⟨x.c0 ^^^ y.c0, x.c1 ^^^ y.c1, x.c2 ^^^ y.c2, x.c3 ^^^ y.c3⟩

end Block

/-! ## Substitution and mixing -/

/-- The substitution of every byte. -/
def substitution : Array UInt8 :=
  #[0x63, 0x7C, 0x77, 0x7B, 0xF2, 0x6B, 0x6F, 0xC5, 0x30, 0x01, 0x67, 0x2B, 0xFE, 0xD7, 0xAB, 0x76,
    0xCA, 0x82, 0xC9, 0x7D, 0xFA, 0x59, 0x47, 0xF0, 0xAD, 0xD4, 0xA2, 0xAF, 0x9C, 0xA4, 0x72, 0xC0,
    0xB7, 0xFD, 0x93, 0x26, 0x36, 0x3F, 0xF7, 0xCC, 0x34, 0xA5, 0xE5, 0xF1, 0x71, 0xD8, 0x31, 0x15,
    0x04, 0xC7, 0x23, 0xC3, 0x18, 0x96, 0x05, 0x9A, 0x07, 0x12, 0x80, 0xE2, 0xEB, 0x27, 0xB2, 0x75,
    0x09, 0x83, 0x2C, 0x1A, 0x1B, 0x6E, 0x5A, 0xA0, 0x52, 0x3B, 0xD6, 0xB3, 0x29, 0xE3, 0x2F, 0x84,
    0x53, 0xD1, 0x00, 0xED, 0x20, 0xFC, 0xB1, 0x5B, 0x6A, 0xCB, 0xBE, 0x39, 0x4A, 0x4C, 0x58, 0xCF,
    0xD0, 0xEF, 0xAA, 0xFB, 0x43, 0x4D, 0x33, 0x85, 0x45, 0xF9, 0x02, 0x7F, 0x50, 0x3C, 0x9F, 0xA8,
    0x51, 0xA3, 0x40, 0x8F, 0x92, 0x9D, 0x38, 0xF5, 0xBC, 0xB6, 0xDA, 0x21, 0x10, 0xFF, 0xF3, 0xD2,
    0xCD, 0x0C, 0x13, 0xEC, 0x5F, 0x97, 0x44, 0x17, 0xC4, 0xA7, 0x7E, 0x3D, 0x64, 0x5D, 0x19, 0x73,
    0x60, 0x81, 0x4F, 0xDC, 0x22, 0x2A, 0x90, 0x88, 0x46, 0xEE, 0xB8, 0x14, 0xDE, 0x5E, 0x0B, 0xDB,
    0xE0, 0x32, 0x3A, 0x0A, 0x49, 0x06, 0x24, 0x5C, 0xC2, 0xD3, 0xAC, 0x62, 0x91, 0x95, 0xE4, 0x79,
    0xE7, 0xC8, 0x37, 0x6D, 0x8D, 0xD5, 0x4E, 0xA9, 0x6C, 0x56, 0xF4, 0xEA, 0x65, 0x7A, 0xAE, 0x08,
    0xBA, 0x78, 0x25, 0x2E, 0x1C, 0xA6, 0xB4, 0xC6, 0xE8, 0xDD, 0x74, 0x1F, 0x4B, 0xBD, 0x8B, 0x8A,
    0x70, 0x3E, 0xB5, 0x66, 0x48, 0x03, 0xF6, 0x0E, 0x61, 0x35, 0x57, 0xB9, 0x86, 0xC1, 0x1D, 0x9E,
    0xE1, 0xF8, 0x98, 0x11, 0x69, 0xD9, 0x8E, 0x94, 0x9B, 0x1E, 0x87, 0xE9, 0xCE, 0x55, 0x28, 0xDF,
    0x8C, 0xA1, 0x89, 0x0D, 0xBF, 0xE6, 0x42, 0x68, 0x41, 0x99, 0x2D, 0x0F, 0xB0, 0x54, 0xBB, 0x16]

/-- The substitute of the byte that stands `shift` bits above the end of `w`. -/
@[inline] def substituteAt (w shift : UInt32) : UInt8 :=
  substitution.getD (w >>> shift &&& 0xFF).toNat 0

/-- Every byte of `w` replaced by its substitute. -/
def substituteWord (w : UInt32) : UInt32 :=
  word (substituteAt w 24) (substituteAt w 16) (substituteAt w 8) (substituteAt w 0)

/-- `b` times the polynomial `x` in the field of 256 elements. -/
@[inline] def double (b : UInt8) : UInt8 := b <<< 1 ^^^ (if 0x80 ≤ b then 0x1B else 0)

/-- A column multiplied by the matrix of the mixing step. -/
def mixColumn (b0 b1 b2 b3 : UInt8) : UInt32 :=
  let all := b0 ^^^ b1 ^^^ b2 ^^^ b3
  word (b0 ^^^ all ^^^ double (b0 ^^^ b1)) (b1 ^^^ all ^^^ double (b1 ^^^ b2))
    (b2 ^^^ all ^^^ double (b2 ^^^ b3)) (b3 ^^^ all ^^^ double (b3 ^^^ b0))

/-- One column after substitution, row shift and mixing; its bytes come from four columns. -/
@[inline] def roundColumn (x0 x1 x2 x3 : UInt32) : UInt32 :=
  mixColumn (substituteAt x0 24) (substituteAt x1 16) (substituteAt x2 8) (substituteAt x3 0)

/-- One column after substitution and row shift. -/
@[inline] def lastColumn (x0 x1 x2 x3 : UInt32) : UInt32 :=
  word (substituteAt x0 24) (substituteAt x1 16) (substituteAt x2 8) (substituteAt x3 0)

/-- A block after a round without its key; `column` makes one column. -/
@[inline] def shiftRows (column : UInt32 → UInt32 → UInt32 → UInt32 → UInt32) (s : Block) : Block :=
  ⟨column s.c0 s.c1 s.c2 s.c3, column s.c1 s.c2 s.c3 s.c0, column s.c2 s.c3 s.c0 s.c1,
    column s.c3 s.c0 s.c1 s.c2⟩

/-! ## Keys -/

/-- A key of one of the two sizes in use. -/
structure Key where
  bytes : Bytes
  size : bytes.length = 16 ∨ bytes.length = 32

/-- `w` rotated by a byte and substituted, with the round constant added on top. -/
def stir (w : UInt32) (constant : UInt8) : UInt32 :=
  substituteWord (w <<< 8 ||| w >>> 24) ^^^ constant.toUInt32 <<< 24

/-- The round keys that follow `k` in a schedule of four words a step. -/
def expandShort (constant : UInt8) (k : Block) : (count : Nat) → List Block
  | 0 => []
  | count + 1 =>
    let c0 := k.c0 ^^^ stir k.c3 constant
    let c1 := k.c1 ^^^ c0
    let c2 := k.c2 ^^^ c1
    let c3 := k.c3 ^^^ c2
    let next : Block := ⟨c0, c1, c2, c3⟩
    next :: expandShort (double constant) next count

/-- The round keys that follow `j` and `k` in a schedule of eight words a step. -/
def expandLong (constant : UInt8) (j k : Block) : (count : Nat) → List Block
  | 0 => []
  | count + 1 =>
    let c0 := j.c0 ^^^ stir k.c3 constant
    let c1 := j.c1 ^^^ c0
    let c2 := j.c2 ^^^ c1
    let c3 := j.c3 ^^^ c2
    let d0 := k.c0 ^^^ substituteWord c3
    let d1 := k.c1 ^^^ d0
    let d2 := k.c2 ^^^ d1
    let d3 := k.c3 ^^^ d2
    let next : Block := ⟨c0, c1, c2, c3⟩
    let after : Block := ⟨d0, d1, d2, d3⟩
    next :: after :: expandLong (double constant) next after count

/-- The key added before the first round, and the keys of the rounds. -/
def Key.schedule (key : Key) : Block × List Block :=
  match Block.ofBytes key.bytes with
  | [k] => (k, expandShort 1 k 10)
  | j :: k :: _ => (j, (k :: expandLong 1 j k 7).take 14)
  | [] => (⟨0, 0, 0, 0⟩, [])

/-! ## Encryption -/

/-- `s` after the rounds of the given keys; the last one does not mix columns. -/
def cipherRounds (s : Block) : List Block → Block
  | [] => s
  | [k] => (shiftRows lastColumn s).xor k
  | k :: keys => cipherRounds ((shiftRows roundColumn s).xor k) keys

/-- The encryption of one block under a schedule. -/
def encryptBlock (schedule : Block × List Block) (b : Block) : Block :=
  cipherRounds (b.xor schedule.1) schedule.2

end Pipework.Aes
