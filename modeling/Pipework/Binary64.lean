set_option autoImplicit false

/-! # Binary floating-point numbers

`Binary64` is a 64-bit floating-point number, held as its bits. Everything the library does with
such numbers is exact arithmetic on natural numbers followed by one rounding (`Binary64.ofRatio`): a
finite number is a whole significand times a power of two (`significand`, `exponent`), and rounding
takes a ratio of natural numbers to the nearest number, a half to the even neighbour. -/

namespace Pipework

/-- A 64-bit binary floating-point number, as its bits. -/
structure Binary64 where
  /-- Sign, eleven bits of exponent and 52 bits of fraction, from the high end down. -/
  bits : UInt64
deriving DecidableEq

namespace Binary64

/-! ## Parts -/

/-- The sign bit is set; zeros and not-a-number have one too. -/
def isNegative (x : Binary64) : Bool := x.bits >>> 63 == 1

/-- The eleven exponent bits. -/
def exponentField (x : Binary64) : Nat := (x.bits >>> 52 &&& 0x7FF).toNat

/-- The 52 fraction bits. -/
def fraction (x : Binary64) : Nat := (x.bits &&& 0xFFFFFFFFFFFFF).toNat

/-- Neither infinite nor not-a-number. -/
def isFinite (x : Binary64) : Bool := x.exponentField != 0x7FF

/-- Not a number. -/
def isNaN (x : Binary64) : Bool := x.exponentField == 0x7FF && x.fraction != 0

/-- Either zero. -/
def isZero (x : Binary64) : Bool := x.exponentField == 0 && x.fraction == 0

/-- The whole number that times `2 ^ exponent` is the magnitude of a finite number. -/
def significand (x : Binary64) : Nat :=
  if x.exponentField = 0 then x.fraction else 0x10000000000000 + x.fraction

/-- The power of two that goes with `significand`. -/
def exponent (x : Binary64) : Int :=
  if x.exponentField = 0 then -1074 else (x.exponentField : Int) - 1075

/-- The magnitude of a finite number as a ratio of natural numbers. -/
def ratio (x : Binary64) : Nat × Nat :=
  (x.significand * Nat.pow 2 x.exponent.toNat, Nat.pow 2 (-x.exponent).toNat)

/-- A finite number without a fractional part. -/
def isWhole (x : Binary64) : Bool :=
  x.isFinite && (let (num, den) := x.ratio; num % den == 0)

/-- The same number with the other sign. -/
def neg (x : Binary64) : Binary64 := ⟨x.bits ^^^ 0x8000000000000000⟩

/-! ## Particular numbers -/

/-- Positive zero. -/
def zero : Binary64 := ⟨0⟩

/-- Positive infinity. -/
def infinity : Binary64 := ⟨0x7FF0000000000000⟩

/-- The quiet not-a-number with an empty payload. -/
def nan : Binary64 := ⟨0x7FF8000000000000⟩

/-! ## Rounding -/

/-- `num / den` rounded to a whole number, a half to the even neighbour. -/
def divRoundEven (num den : Nat) : Nat :=
  let quotient := num / den
  let twice := 2 * (num % den)
  if twice < den then quotient
  else if den < twice then quotient + 1
  else quotient + quotient % 2

/-- `num / den` divided by `2 ^ power`, as a ratio. -/
def scaled (num den : Nat) (power : Int) : Nat × Nat :=
  (num * Nat.pow 2 (-power).toNat, den * Nat.pow 2 power.toNat)

/-- The power of two to which `num / den` is rounded: that of the last of 53 significant bits, but
    never one below the least exponent. -/
def roundingPower (num den : Nat) : Int :=
  let power := max (-1074) ((Nat.log2 num : Int) - Nat.log2 den - 52)
  let (n, d) := scaled num den power
  if n / d < 0x10000000000000 then max (-1074) (power - 1) else power

/-- The number nearest to `num / den`, a half going to the even significand; infinity from half a
    unit above the greatest finite number on. -/
def ofRatio (num den : Nat) : Binary64 :=
  if num = 0 then zero
  else
    let power := roundingPower num den
    let (n, d) := scaled num den power
    let bits := (power + 1074).toNat * 0x10000000000000 + divRoundEven n d
    if bits < infinity.bits.toNat then ⟨UInt64.ofNat bits⟩ else infinity

/-- The number nearest to `n`. -/
def ofNat (n : Nat) : Binary64 := ofRatio n 1

/-- The number nearest to `n`. -/
def ofInt (n : Int) : Binary64 := if n < 0 then (ofNat n.natAbs).neg else ofNat n.natAbs

/-- The rounded product of two magnitudes. -/
def mulMagnitude (x y : Binary64) : Binary64 :=
  let (a, b) := x.ratio
  let (c, d) := y.ratio
  ofRatio (a * c) (b * d)

/-- The rounded quotient of two magnitudes. -/
def divMagnitude (x y : Binary64) : Binary64 :=
  let (a, b) := x.ratio
  let (c, d) := y.ratio
  ofRatio (a * d) (b * c)

/-- Equality of numbers: zeros are equal whatever their sign, and not-a-number equals nothing. -/
def sameNumber (x y : Binary64) : Bool :=
  !x.isNaN && !y.isNaN && (x == y || (x.isZero && y.isZero))

end Binary64

end Pipework
