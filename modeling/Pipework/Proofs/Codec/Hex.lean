import Pipework.Codec.Hex
import Pipework.Proofs.Text.Blank
import Mathlib.Data.List.Basic

set_option autoImplicit false

/-! # Hexadecimal text reads back

A text spells one byte for every two digits in it, and no text of another length
(`Hex.length_of_decodePairs`). So the text of a byte string reads back as long as nothing but blanks
is set between its blocks, and any separator that is more than blanks makes the text spell other
bytes or none (`Hex.decode_intercalate_iff`). -/

namespace Pipework.Hex

/-! ## Digits -/

/-- The digits of one case, in the order of their values. -/
def alphabet (upper : Bool) : List Char :=
  if upper then "0123456789ABCDEF".toList else "0123456789abcdef".toList

/-- `chars` are the digits of `bytes`: two for each byte, that of the greater part first. -/
inductive Spells (upper : Bool) : Bytes → List Char → Prop
  | nil : Spells upper [] []
  | cons {byte : UInt8} {bytes : Bytes} {high low : Char} {chars : List Char}
      (hhigh : (alphabet upper)[byte.toNat / 16]? = some high)
      (hlow : (alphabet upper)[byte.toNat % 16]? = some low) (h : Spells upper bytes chars) :
      Spells upper (byte :: bytes) (high :: low :: chars)

theorem alphabet_getElem? (upper : Bool) {value : Nat} (h : value < 16) :
    (alphabet upper)[value]? = some (digit upper value) := by
  have hall : ∀ (upper : Bool) (value : Fin 16),
      (alphabet upper)[value.val]? = some (digit upper value) := by decide
  exact hall upper ⟨value, h⟩

theorem spells_encode (upper : Bool) (bytes : Bytes) : Spells upper bytes (encode upper bytes) := by
  induction bytes with
  | nil => exact .nil
  | cons byte rest ih =>
      have hbyte : byte.toNat < 256 := byte.toNat_lt
      exact .cons (alphabet_getElem? upper (by omega)) (alphabet_getElem? upper (by omega)) ih

theorem digitValue?_digit (upper : Bool) {value : Nat} (h : value < 16) :
    digitValue? (digit upper value) = some value := by
  have hall : ∀ (upper : Bool) (value : Fin 16),
      digitValue? (digit upper value) = some value.val := by decide
  exact hall upper ⟨value, h⟩

/-- The digits lie in three ranges of code points. -/
theorem toNat_of_digitValue? {c : Char} {value : Nat} (h : digitValue? c = some value) :
    0x30 ≤ c.toNat ∧ c.toNat ≤ 0x39 ∨ 0x41 ≤ c.toNat ∧ c.toNat ≤ 0x46 ∨
      0x61 ≤ c.toNat ∧ c.toNat ≤ 0x66 := by
  have hle : ∀ a b : Char, a ≤ b ↔ a.toNat ≤ b.toNat := fun _ _ => Iff.rfl
  unfold digitValue? at h
  simp only [hle] at h
  split_ifs at h with hdecimal hlower hupper
  · exact Or.inl hdecimal
  · exact Or.inr (Or.inr hlower)
  · exact Or.inr (Or.inl hupper)

theorem isBlank_of_digitValue? {c : Char} {value : Nat} (h : digitValue? c = some value) :
    Text.isBlank c = false := by
  have hrange := toNat_of_digitValue? h
  -- no blank lies in one of the ranges
  simp only [Text.isBlank, Text.inRanges, Text.blankRanges, List.any_cons, List.any_nil,
    Bool.or_eq_false_iff, Bool.and_eq_false_iff, decide_eq_false_iff_not, and_true]
  omega

/-! ## Pairs of digits -/

theorem decodePairs_pair_append (upper : Bool) (byte : UInt8) (rest : List Char) :
    decodePairs (pair upper byte ++ rest) = (decodePairs rest).map (byte :: ·) := by
  have hbyte : byte.toNat < 256 := byte.toNat_lt
  have hhigh : byte.toNat / 16 < 16 := by omega
  have hlow : byte.toNat % 16 < 16 := by omega
  have hsum : UInt8.ofNat (16 * (byte.toNat / 16) + byte.toNat % 16) = byte := by
    rw [Nat.div_add_mod, UInt8.ofNat_toNat]
  simp only [pair, List.cons_append, List.nil_append, decodePairs, digitValue?_digit _ hhigh,
    digitValue?_digit _ hlow]
  show (decodePairs rest >>= fun bytes => some (UInt8.ofNat _ :: bytes)) = _
  rw [hsum]
  cases decodePairs rest <;> rfl

theorem decodePairs_encode (upper : Bool) (bytes : Bytes) :
    decodePairs (encode upper bytes) = some bytes := by
  induction bytes with
  | nil => rfl
  | cons byte rest ih =>
      unfold encode at ih ⊢
      rw [List.flatMap_cons, decodePairs_pair_append, ih]
      rfl

theorem length_encode (upper : Bool) (bytes : Bytes) :
    (encode upper bytes).length = 2 * bytes.length := by
  induction bytes with
  | nil => rfl
  | cons byte rest ih =>
      unfold encode at ih ⊢
      simp only [List.flatMap_cons, List.length_append, ih, pair, List.length_cons, List.length_nil]
      omega

theorem encode_flatten (upper : Bool) (pieces : List Bytes) :
    encode upper pieces.flatten = (pieces.map (encode upper)).flatten := by
  induction pieces with
  | nil => rfl
  | cons piece rest ih =>
      unfold encode at ih ⊢
      rw [List.flatten_cons, List.flatMap_append, ih, List.map_cons, List.flatten_cons]

theorem digitValue?_of_mem_encode {upper : Bool} {bytes : Bytes} {c : Char}
    (h : c ∈ encode upper bytes) : ∃ value, digitValue? c = some value := by
  obtain ⟨byte, -, hc⟩ := List.mem_flatMap.1 h
  have hbyte : byte.toNat < 256 := byte.toNat_lt
  simp only [pair, List.mem_cons, List.not_mem_nil, or_false] at hc
  rcases hc with rfl | rfl
  · exact ⟨_, digitValue?_digit upper (by omega)⟩
  · exact ⟨_, digitValue?_digit upper (by omega)⟩

/-- What is spelled has half as many bytes as there are digits. -/
theorem length_of_decodePairs {digits : List Char} {bytes : Bytes}
    (h : decodePairs digits = some bytes) : digits.length = 2 * bytes.length := by
  fun_induction decodePairs digits generalizing bytes with
  | case1 =>
      obtain rfl := Option.some.inj h
      rfl
  | case2 => cases h
  | case3 high low rest ih =>
      simp only [Option.bind_eq_bind, Option.bind_eq_some_iff] at h
      obtain ⟨_, -, _, -, bytes', hrest, hbytes⟩ := h
      obtain rfl := Option.some.inj hbytes
      simp only [List.length_cons, ih hrest]
      omega

/-! ## Blanks -/

/-- `chars` without blanks. -/
def dense (chars : List Char) : List Char := chars.filter fun c => !Text.isBlank c

@[simp] theorem dense_append (front back : List Char) :
    dense (front ++ back) = dense front ++ dense back := List.filter_append ..

@[simp] theorem dense_encode (upper : Bool) (bytes : Bytes) :
    dense (encode upper bytes) = encode upper bytes := by
  refine List.filter_eq_self.2 fun c hc => ?_
  obtain ⟨value, hvalue⟩ := digitValue?_of_mem_encode hc
  rw [isBlank_of_digitValue? hvalue]
  rfl

theorem dense_eq_nil_iff {chars : List Char} :
    dense chars = [] ↔ ∀ c ∈ chars, Text.isBlank c = true := by
  simp [dense, List.filter_eq_nil_iff]

/-- Trimming leaves all that is no blank. -/
theorem dense_eq_trim {chars : List Char} (h : ∀ c ∈ Text.trim chars, Text.isBlank c = false) :
    dense chars = Text.trim chars := by
  obtain ⟨front, back, hfront, hback, hchars⟩ := Text.exists_eq_append_trim_append chars
  have hself : dense (Text.trim chars) = Text.trim chars :=
    List.filter_eq_self.2 fun c hc => by rw [h c hc]; rfl
  conv_lhs => rw [hchars]
  rw [dense_append, dense_append, dense_eq_nil_iff.2 hfront, dense_eq_nil_iff.2 hback, hself,
    List.nil_append, List.append_nil]

theorem decode_eq_ok_iff {text : List Char} {bytes : Bytes} :
    decode text = .ok bytes ↔ decodePairs (dense text) = some bytes := by
  have hdense : text.filter (fun c => !Text.isBlank c) = dense text := rfl
  unfold decode
  simp only [hdense]
  cases decodePairs (dense text) with
  | some found => simp
  | none =>
      simp only [reduceCtorEq, iff_false]
      split_ifs <;> simp

/-! ## Blocks -/

/-- `pieces` are `items` cut from the left into pieces of `size`, of which only the last may be
    shorter. -/
structure CutInto {α : Type} (size : Nat) (items : List α) (pieces : List (List α)) : Prop where
  flatten_eq : pieces.flatten = items
  ne_nil : ∀ piece ∈ pieces, piece ≠ []
  length_le : ∀ piece ∈ pieces, piece.length ≤ size
  length_eq : ∀ piece ∈ pieces.dropLast, piece.length = size

theorem cutInto_blocks {α : Type} (size : Nat) (items : List α) :
    CutInto (size + 1) items (blocks size items) := by
  fun_induction blocks size items with
  | case1 => exact ⟨rfl, nofun, nofun, nofun⟩
  | case2 item rest ih =>
      refine ⟨?_, ?_, ?_, ?_⟩
      · rw [List.flatten_cons, ih.flatten_eq, List.cons_append, List.take_append_drop]
      · intro piece hpiece
        rcases List.mem_cons.1 hpiece with rfl | hpiece
        · exact List.cons_ne_nil _ _
        · exact ih.ne_nil piece hpiece
      · intro piece hpiece
        rcases List.mem_cons.1 hpiece with rfl | hpiece
        · simp only [List.length_cons, List.length_take]
          omega
        · exact ih.length_le piece hpiece
      · intro piece hpiece
        by_cases hrest : rest.drop size = []
        · -- this piece is the last one
          rw [hrest, blocks] at hpiece
          cases hpiece
        · have hmore : blocks size (rest.drop size) ≠ [] := by
            intro hnil
            have hflat := ih.flatten_eq
            rw [hnil] at hflat
            exact hrest hflat.symm
          rw [List.dropLast_cons_of_ne_nil hmore] at hpiece
          rcases List.mem_cons.1 hpiece with rfl | hpiece
          · have hlong : size < rest.length := by
              simpa using hrest
            simp only [List.length_cons, List.length_take]
            omega
          · exact ih.length_eq piece hpiece

/-! ## Separators -/

theorem dense_intercalate (separator : List Char) (pieces : List (List Char)) :
    dense (separator.intercalate pieces) = (dense separator).intercalate (pieces.map dense) := by
  induction pieces with
  | nil => rfl
  | cons piece rest ih =>
      cases rest with
      | nil => simp
      | cons next rest =>
          simp only [List.map_cons] at ih
          simp only [List.map_cons, List.intercalate_cons_cons, dense_append, ih]

theorem nil_intercalate (pieces : List (List Char)) : [].intercalate pieces = pieces.flatten := by
  induction pieces with
  | nil => rfl
  | cons piece rest ih =>
      cases rest with
      | nil => simp
      | cons next rest =>
          rw [List.intercalate_cons_cons, ih, List.append_nil]
          rfl

theorem length_intercalate (separator : List Char) (pieces : List (List Char)) :
    (separator.intercalate pieces).length =
      pieces.flatten.length + separator.length * (pieces.length - 1) := by
  induction pieces with
  | nil => simp
  | cons piece rest ih =>
      cases rest with
      | nil => simp
      | cons next rest =>
          simp only [List.length_cons, Nat.add_sub_cancel] at ih ⊢
          simp only [List.intercalate_cons_cons, List.length_append, ih, List.flatten_cons]
          rw [Nat.mul_succ]
          omega

/-- **Blocks read back exactly if nothing but blanks separates them.** -/
theorem decode_intercalate_iff (upper : Bool) (separator : List Char) (pieces : List Bytes) :
    decode (separator.intercalate (pieces.map (encode upper))) = .ok pieces.flatten ↔
      (∀ c ∈ separator, Text.isBlank c = true) ∨ pieces.length ≤ 1 := by
  have hdense : dense (separator.intercalate (pieces.map (encode upper))) =
      (dense separator).intercalate (pieces.map (encode upper)) := by
    rw [dense_intercalate, List.map_map]
    congr 2
    exact funext fun piece => dense_encode upper piece
  rw [decode_eq_ok_iff, hdense, ← dense_eq_nil_iff]
  constructor
  · intro hpairs
    -- the digits of the separators would count as well
    have hlength := length_of_decodePairs hpairs
    rw [length_intercalate, ← encode_flatten, length_encode, List.length_map] at hlength
    have hzero : (dense separator).length * (pieces.length - 1) = 0 := by omega
    rcases Nat.mul_eq_zero.1 hzero with hnone | hfew
    · exact Or.inl (List.eq_nil_of_length_eq_zero hnone)
    · exact Or.inr (by omega)
  · rintro (hblank | hfew)
    · rw [hblank, nil_intercalate, ← encode_flatten, decodePairs_encode]
    · match pieces, hfew with
      | [], _ => rfl
      | [piece], _ =>
          rw [List.map_singleton, List.intercalate_singleton, decodePairs_encode]
          simp

end Pipework.Hex
