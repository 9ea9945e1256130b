import Mathlib.Algebra.Group.Nat.Defs
import Mathlib.Data.List.Induction
import Pipework.Codec.Octet
import Pipework.Proofs.Text.Utf8

set_option autoImplicit false

/-! # Octets read back

Eight binary digits are the bits of a byte, the most significant first. Bits and the number that
they make up determine each other as long as their count is known (`numberFrom_bits`,
`bits_numberFrom`), so reading accepts exactly the eight digits that are written for a byte
(`decode_eq_ok_iff`). Any other text is refused for its length or for the first of its bytes that is
no digit (`decode_eq_error_iff`). -/

namespace Pipework.Octet

/-! ## Bits of a number -/

/-- The number that bits make up, the most significant first, behind those of `value`. -/
def numberFrom (value : Nat) (bits : List Bool) : Nat :=
  bits.foldl (fun value bit => 2 * value + bit.toNat) value

/-- The last `count` bits of `n`, the most significant first. -/
def bits (count n : Nat) : List Bool := (List.range count).reverse.map n.testBit

@[simp] theorem length_bits (count n : Nat) : (bits count n).length = count := by
  simp [bits]

theorem bits_succ (count n : Nat) : bits (count + 1) n = bits count (n / 2) ++ [n.testBit 0] := by
  simp [bits, List.range_succ_eq_map, Function.comp_def, Nat.testBit_succ]

theorem numberFrom_append_singleton (value : Nat) (before : List Bool) (bit : Bool) :
    numberFrom value (before ++ [bit]) = 2 * numberFrom value before + bit.toNat := by
  simp [numberFrom]

theorem numberFrom_bits (count n : Nat) : numberFrom 0 (bits count n) = n % 2 ^ count := by
  induction count generalizing n with
  | zero => simp [bits, numberFrom, Nat.mod_one]
  | succ count ih =>
      rw [bits_succ, numberFrom_append_singleton, ih, Nat.pow_succ', Nat.mod_mul, Nat.testBit_zero]
      rcases Nat.mod_two_eq_zero_or_one n with h | h <;> simp [h, Nat.add_comm]

theorem bits_numberFrom (digits : List Bool) : bits digits.length (numberFrom 0 digits) = digits := by
  induction digits using List.reverseRecOn with
  | nil => rfl
  | append_singleton before bit ih =>
      rw [numberFrom_append_singleton, List.length_append, List.length_singleton, bits_succ]
      have hbit : bit.toNat ≤ 1 := bit.toNat_le
      have hhalf : (2 * numberFrom 0 before + bit.toNat) / 2 = numberFrom 0 before := by omega
      have hlast : (2 * numberFrom 0 before + bit.toNat).testBit 0 = bit := by
        cases bit <;> simp
      rw [hhalf, hlast, ih]

theorem numberFrom_lt (digits : List Bool) : numberFrom 0 digits < 2 ^ digits.length := by
  have h := numberFrom_bits digits.length (numberFrom 0 digits)
  rw [bits_numberFrom] at h
  rw [h]
  exact Nat.mod_lt _ (Nat.two_pow_pos _)

/-! ## Digits of a byte -/

/-- The digit of a bit. -/
def digit (bit : Bool) : Char := if bit then '1' else '0'

/-- The digit of a bit, as a byte. -/
def digitByte (bit : Bool) : UInt8 := if bit then 0x31 else 0x30

/-- The byte is a binary digit. -/
def IsDigit (byte : UInt8) : Prop := byte = 0x30 ∨ byte = 0x31

theorem encode_eq_map_bits (byte : UInt8) : encode byte = (bits 8 byte.toNat).map digit := by
  rw [bits, List.map_map]
  rfl

theorem encode_digits (digits : List Bool) :
    Utf8.encode (String.ofList (digits.map digit)) = digits.map digitByte := by
  have hascii : ∀ c ∈ digits.map digit, c.toNat < 128 := by
    intro c hc
    obtain ⟨bit, -, rfl⟩ := List.mem_map.1 hc
    cases bit <;> decide
  rw [Utf8.encode_ofList_of_lt hascii, List.map_map]
  apply List.map_congr_left
  intro bit _
  cases bit <;> rfl

theorem toList_eq_digits_iff {text : String} {digits : List Bool} :
    text.toList = digits.map digit ↔ Utf8.encode text = digits.map digitByte := by
  rw [← encode_digits]
  constructor
  · intro h
    rw [← h, String.ofList_toList]
  · intro h
    rw [Utf8.eq_of_encode_eq h, String.toList_ofList]

/-! ## Reading digits -/

theorem isDigit_iff {byte : UInt8} : IsDigit byte ↔ ∃ bit, byte = digitByte bit := by
  simp [IsDigit, digitByte]

/-- Bytes are digits throughout or have a first that is none. -/
theorem digits_or_not (bytes : Bytes) :
    (∃ digits : List Bool, bytes = digits.map digitByte) ∨
      ∃ before byte after, bytes = before ++ byte :: after ∧
        (∀ earlier ∈ before, IsDigit earlier) ∧ ¬IsDigit byte := by
  induction bytes with
  | nil => exact Or.inl ⟨[], rfl⟩
  | cons first rest ih =>
      by_cases hfirst : IsDigit first
      · rcases ih with ⟨digits, rfl⟩ | ⟨before, byte, after, rfl, hbefore, hbyte⟩
        · obtain ⟨bit, rfl⟩ := isDigit_iff.1 hfirst
          exact Or.inl ⟨bit :: digits, rfl⟩
        · exact Or.inr ⟨first :: before, byte, after, rfl,
            List.forall_mem_cons.2 ⟨hfirst, hbefore⟩, hbyte⟩
      · exact Or.inr ⟨[], first, rest, rfl, nofun, hfirst⟩

theorem decodeFrom_digits (value offset : Nat) (digits : List Bool) :
    decodeFrom value offset (digits.map digitByte) = .ok (numberFrom value digits) := by
  induction digits generalizing value offset with
  | nil => rfl
  | cons bit rest ih => cases bit <;> simp [decodeFrom, digitByte, ih, numberFrom]

theorem decodeFrom_of_not_isDigit (value offset : Nat) {before : Bytes} {byte : UInt8}
    (after : Bytes) (hbefore : ∀ earlier ∈ before, IsDigit earlier) (hbyte : ¬IsDigit byte) :
    decodeFrom value offset (before ++ byte :: after) =
      .error (.nonBinary (offset + before.length)) := by
  induction before generalizing value offset with
  | nil =>
      rw [IsDigit, not_or] at hbyte
      simp [decodeFrom, hbyte]
  | cons first rest ih =>
      obtain ⟨hfirst, hrest⟩ := List.forall_mem_cons.1 hbefore
      have hoffset : offset + 1 + rest.length = offset + (rest.length + 1) := by omega
      rcases hfirst with rfl | rfl <;> simp [decodeFrom, ih _ _ hrest, hoffset]

/-! ## Reading texts -/

/-- Why a text is the octet of no byte: it does not take eight bytes, or it does and the byte behind
    `before` is the first that is no digit. -/
inductive Misspelt (text : String) : Error → Prop
  | wrongLength (h : (Utf8.encode text).length ≠ 8) : Misspelt text (.wrongLength text.length)
  | nonBinary {before after : Bytes} {byte : UInt8} (hlength : (Utf8.encode text).length = 8)
      (htext : Utf8.encode text = before ++ byte :: after)
      (hbefore : ∀ earlier ∈ before, IsDigit earlier) (hbyte : ¬IsDigit byte) :
      Misspelt text (.nonBinary before.length)

theorem spelt_or_misspelt (text : String) :
    (∃ byte, text.toList = encode byte) ∨ ∃ error, Misspelt text error := by
  by_cases hlength : (Utf8.encode text).length = 8
  · rcases digits_or_not (Utf8.encode text) with
      ⟨digits, hdigits⟩ | ⟨before, byte, after, htext, hbefore, hbyte⟩
    · have hcount : digits.length = 8 := by rw [← hlength, hdigits, List.length_map]
      have hlt : numberFrom 0 digits < 2 ^ 8 := hcount ▸ numberFrom_lt digits
      have hbyte : (UInt8.ofNat (numberFrom 0 digits)).toNat = numberFrom 0 digits :=
        UInt8.toNat_ofNat_of_lt' hlt
      refine Or.inl ⟨UInt8.ofNat (numberFrom 0 digits), ?_⟩
      rw [encode_eq_map_bits, hbyte, ← hcount, bits_numberFrom]
      exact toList_eq_digits_iff.2 hdigits
    · exact Or.inr ⟨_, .nonBinary hlength htext hbefore hbyte⟩
  · exact Or.inr ⟨_, .wrongLength hlength⟩

theorem decode_of_toList_eq {text : String} {byte : UInt8} (h : text.toList = encode byte) :
    decode text = .ok byte := by
  rw [encode_eq_map_bits, toList_eq_digits_iff] at h
  have hlt : byte.toNat < 2 ^ 8 := byte.toNat_lt
  rw [decode, h, List.length_map, length_bits, if_pos rfl, decodeFrom_digits, numberFrom_bits,
    Nat.mod_eq_of_lt hlt]
  exact congrArg Except.ok UInt8.ofNat_toNat

theorem decode_of_misspelt {text : String} {error : Error} (h : Misspelt text error) :
    decode text = .error error := by
  rcases h with hlength | ⟨hlength, htext, hbefore, hbyte⟩
  · rw [decode, if_neg hlength]
  · rw [decode, if_pos hlength, htext, decodeFrom_of_not_isDigit 0 0 _ hbefore hbyte,
      Nat.zero_add]
    rfl

/-- **The octets are the texts that are written for a byte.** -/
theorem decode_eq_ok_iff {text : String} {byte : UInt8} :
    decode text = .ok byte ↔ text.toList = encode byte := by
  refine ⟨fun h => ?_, decode_of_toList_eq⟩
  rcases spelt_or_misspelt text with ⟨other, hother⟩ | ⟨error, herror⟩
  · obtain rfl := Except.ok.inj (h.symm.trans (decode_of_toList_eq hother))
    exact hother
  · cases h.symm.trans (decode_of_misspelt herror)

theorem decode_eq_error_iff {text : String} {error : Error} :
    decode text = .error error ↔ Misspelt text error := by
  refine ⟨fun h => ?_, decode_of_misspelt⟩
  rcases spelt_or_misspelt text with ⟨byte, hbyte⟩ | ⟨other, hother⟩
  · cases h.symm.trans (decode_of_toList_eq hbyte)
  · obtain rfl := Except.error.inj (h.symm.trans (decode_of_misspelt hother))
    exact hother

end Pipework.Octet
