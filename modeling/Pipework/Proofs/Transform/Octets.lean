import Pipework.Proofs.Codec.Octet
import Pipework.Proofs.Data.Except
import Pipework.Transform.Octets

set_option autoImplicit false

/-! # Bytes as integers read back

Octets and lists of integers are read exactly if they were written for bytes, and as these bytes
(`octets_read_back`). Of a list, the first item that is no byte decides what is told (`Offends`),
whether it is an integer that is too small or too large or no integer at all. -/

namespace Pipework.Transform

/-! ## Single bytes -/

theorem toInt_intOf (byte : UInt8) : (Int64.ofNat byte.toNat).toInt = byte.toNat := by
  have hlt : byte.toNat < 2 ^ 8 := byte.toNat_lt
  exact Int64.toInt_ofNat_of_lt (by omega)

theorem byteOf_intOf (byte : UInt8) : byteOf (intOf byte) = .ok byte := by
  have hlt : byte.toNat < 2 ^ 8 := byte.toNat_lt
  have hrange : 0 ≤ (byte.toNat : Int) ∧ (byte.toNat : Int) < 256 := by omega
  simp only [byteOf, intOf, toInt_intOf, if_pos hrange, Int.toNat_natCast, UInt8.ofNat_toNat]

theorem exists_intOf_eq {n : Int64} (h : 0 ≤ n.toInt ∧ n.toInt < 256) :
    ∃ byte, Value.int n = intOf byte := by
  have hlt : n.toInt.toNat < 2 ^ 8 := by omega
  refine ⟨UInt8.ofNat n.toInt.toNat, congrArg _ (Int64.toInt_inj.1 ?_)⟩
  rw [toInt_intOf, UInt8.toNat_ofNat_of_lt' hlt, Int.toNat_of_nonneg h.1]

theorem byteOf_eq_ok_iff {value : Value} {byte : UInt8} :
    byteOf value = .ok byte ↔ value = intOf byte := by
  constructor
  · intro h
    cases value with
    | int n =>
        by_cases hrange : 0 ≤ n.toInt ∧ n.toInt < 256
        · obtain ⟨other, hother⟩ := exists_intOf_eq hrange
          rw [hother, byteOf_intOf] at h
          rw [hother, Except.ok.inj h]
        · simp [byteOf, hrange] at h
    | _ => cases h
  · rintro rfl
    exact byteOf_intOf byte

/-! ## Lists -/

/-- Why an item of a list is no byte, `index` items being before it. -/
inductive Offends (index : Nat) : Value → Fault → Prop
  | beyond {n : Int64} (h : n.toInt < 0 ∨ 255 < n.toInt) :
      Offends index (.int n) (.notByteAt index)
  | notInt {item : Value} (h : item.kind ≠ .int) :
      Offends index item (.wrongKind .int item.kind)

theorem byte_or_offends (index : Nat) (item : Value) :
    (∃ byte, item = intOf byte) ∨ ∃ fault, Offends index item fault := by
  by_cases hkind : item.kind = .int
  · cases item <;> cases hkind
    next n =>
      by_cases hrange : n.toInt < 0 ∨ 255 < n.toInt
      · exact Or.inr ⟨_, .beyond hrange⟩
      · exact Or.inl (exists_intOf_eq (by omega))
  · exact Or.inr ⟨_, .notInt hkind⟩

theorem bytesOfItems_cons_intOf (index : Nat) (byte : UInt8) (rest : List Value) :
    bytesOfItems index (intOf byte :: rest) =
      (do return byte :: (← bytesOfItems (index + 1) rest)) := by
  rw [bytesOfItems, byteOf_intOf]

theorem bytesOfItems_cons_of_offends {index : Nat} {item : Value} {fault : Fault}
    (h : Offends index item fault) (rest : List Value) :
    bytesOfItems index (item :: rest) = .error fault := by
  cases h with
  | @beyond n hrange =>
      have hnot : ¬(0 ≤ n.toInt ∧ n.toInt < 256) := by omega
      simp only [bytesOfItems, byteOf, if_neg hnot]
  | notInt hkind =>
      cases item with
      | int n => exact absurd rfl hkind
      | _ => rfl

/-- Bytes in front are read one by one. -/
theorem bytesOfItems_append (index : Nat) (before : Bytes) (rest : List Value) :
    bytesOfItems index (before.map intOf ++ rest) =
      (do return before ++ (← bytesOfItems (index + before.length) rest)) := by
  induction before generalizing index with
  | nil => simp
  | cons byte before ih =>
      have hindex : index + 1 + before.length = index + (before.length + 1) := by omega
      rw [List.map_cons, List.cons_append, bytesOfItems_cons_intOf, ih, hindex]
      simp

theorem bytes_or_not (items : List Value) :
    (∃ bytes : Bytes, items = bytes.map intOf) ∨ ∃ (before : Bytes) (item : Value)
      (after : List Value), items = before.map intOf ++ item :: after ∧
        ∀ byte, item ≠ intOf byte := by
  induction items with
  | nil => exact Or.inl ⟨[], rfl⟩
  | cons first rest ih =>
      by_cases hfirst : ∃ byte, first = intOf byte
      · obtain ⟨byte, rfl⟩ := hfirst
        rcases ih with ⟨bytes, rfl⟩ | ⟨before, item, after, rfl, hitem⟩
        · exact Or.inl ⟨byte :: bytes, rfl⟩
        · exact Or.inr ⟨byte :: before, item, after, rfl, hitem⟩
      · exact Or.inr ⟨[], first, rest, rfl, not_exists.1 hfirst⟩

theorem bytesOfItems_map_intOf (index : Nat) (bytes : Bytes) :
    bytesOfItems index (bytes.map intOf) = .ok bytes := by
  have h := bytesOfItems_append index bytes []
  rw [List.append_nil] at h
  rw [h]
  exact congrArg Except.ok bytes.append_nil

theorem bytesOfItems_of_offends (index : Nat) {before : Bytes} {item : Value} {fault : Fault}
    (h : Offends (index + before.length) item fault) (after : List Value) :
    bytesOfItems index (before.map intOf ++ item :: after) = .error fault := by
  rw [bytesOfItems_append, bytesOfItems_cons_of_offends h]
  rfl

/-- A list is read as bytes, or its first item that is no byte is told. -/
theorem bytesOfItems_cases (index : Nat) (items : List Value) :
    (∃ bytes : Bytes, items = bytes.map intOf ∧ bytesOfItems index items = .ok bytes) ∨
      ∃ (before : Bytes) (item : Value) (after : List Value) (fault : Fault),
        items = before.map intOf ++ item :: after ∧
          Offends (index + before.length) item fault ∧
          bytesOfItems index items = .error fault := by
  rcases bytes_or_not items with ⟨bytes, rfl⟩ | ⟨before, item, after, rfl, hitem⟩
  · exact Or.inl ⟨bytes, rfl, bytesOfItems_map_intOf index bytes⟩
  · rcases byte_or_offends (index + before.length) item with ⟨byte, hbyte⟩ | ⟨fault, hfault⟩
    · exact absurd hbyte (hitem byte)
    · exact Or.inr ⟨before, item, after, fault, rfl, hfault, bytesOfItems_of_offends index hfault _⟩

theorem bytesOfItems_eq_ok_iff {index : Nat} {items : List Value} {bytes : Bytes} :
    bytesOfItems index items = .ok bytes ↔ items = bytes.map intOf := by
  constructor
  · intro h
    rcases bytesOfItems_cases index items with
      ⟨other, hitems, hother⟩ | ⟨before, item, after, fault, -, -, hfault⟩
    · rw [hitems, Except.ok.inj (h.symm.trans hother)]
    · cases h.symm.trans hfault
  · rintro rfl
    exact bytesOfItems_map_intOf index bytes

theorem bytesOfItems_eq_error_iff {index : Nat} {items : List Value} {fault : Fault} :
    bytesOfItems index items = .error fault ↔
      ∃ (before : Bytes) (item : Value) (after : List Value),
        items = before.map intOf ++ item :: after ∧
          Offends (index + before.length) item fault := by
  constructor
  · intro h
    rcases bytesOfItems_cases index items with
      ⟨bytes, -, hbytes⟩ | ⟨before, item, after, other, hitems, hoffends, hother⟩
    · cases h.symm.trans hbytes
    · obtain rfl := Except.error.inj (h.symm.trans hother)
      exact ⟨before, item, after, hitems, hoffends⟩
  · rintro ⟨before, item, after, rfl, hoffends⟩
    exact bytesOfItems_of_offends index hoffends after

/-! ## Values -/

theorem bytesToInts_bytes (bytes : Bytes) :
    bytesToInts (.bytes bytes) = .ok (.list (bytes.map intOf)) :=
  rfl

theorem intsToBytes_eq_ok_iff {value output : Value} :
    intsToBytes value = .ok output ↔
      ∃ bytes : Bytes, output = .bytes bytes ∧ value = .list (bytes.map intOf) := by
  cases value with
  | list items =>
      simp only [intsToBytes, bind_eq_ok_iff, pure_eq_ok_iff, bytesOfItems_eq_ok_iff,
        Value.list.injEq]
      constructor
      · rintro ⟨bytes, hitems, rfl⟩
        exact ⟨bytes, rfl, hitems⟩
      · rintro ⟨bytes, rfl, hitems⟩
        exact ⟨bytes, hitems, rfl⟩
  | _ => simp [intsToBytes]

theorem intsToBytes_list_eq_error_iff {items : List Value} {fault : Fault} :
    intsToBytes (.list items) = .error fault ↔
      ∃ (before : Bytes) (item : Value) (after : List Value),
        items = before.map intOf ++ item :: after ∧ Offends before.length item fault := by
  simp only [intsToBytes, bind_pure_eq_error_iff, bytesOfItems_eq_error_iff, Nat.zero_add]

theorem intToOctet_eq_ok_iff {value : Value} {text : String} :
    intToOctet value = .ok (.text text) ↔
      ∃ byte, value = intOf byte ∧ text.toList = Octet.encode byte := by
  simp only [intToOctet, bind_eq_ok_iff, pure_eq_ok_iff, byteOf_eq_ok_iff, Value.text.injEq]
  constructor
  · rintro ⟨byte, rfl, rfl⟩
    exact ⟨byte, rfl, String.toList_ofList⟩
  · rintro ⟨byte, rfl, h⟩
    exact ⟨byte, rfl, by rw [← h, String.ofList_toList]⟩

theorem octetToInt_text (text : String) :
    octetToInt (.text text) = (do return intOf (← (Octet.decode text).mapError Fault.octet)) :=
  rfl

theorem octetToInt_text_eq_ok_iff {text : String} {output : Value} :
    octetToInt (.text text) = .ok output ↔
      ∃ byte, output = intOf byte ∧ text.toList = Octet.encode byte := by
  simp only [octetToInt_text, bind_eq_ok_iff, pure_eq_ok_iff, mapError_eq_ok_iff,
    Octet.decode_eq_ok_iff]
  constructor
  · rintro ⟨byte, htext, rfl⟩
    exact ⟨byte, rfl, htext⟩
  · rintro ⟨byte, rfl, htext⟩
    exact ⟨byte, htext, rfl⟩

theorem octetToInt_text_eq_error_iff {text : String} {fault : Fault} :
    octetToInt (.text text) = .error fault ↔
      ∃ error, Octet.Misspelt text error ∧ fault = .octet error := by
  simp only [octetToInt_text, bind_pure_eq_error_iff, mapError_eq_error_iff,
    Octet.decode_eq_error_iff, @eq_comm _ fault]

/-! ## What is told -/

theorem exists_offends_iff {index : Nat} {item : Value} {error : TransformError} :
    (∃ fault, Offends index item fault ∧ fault.toError = error) ↔
      (∃ n : Int64, item = .int n ∧ (n.toInt < 0 ∨ 255 < n.toInt) ∧
        error = .invalidValue s!"element {index} is out of byte range") ∨
      (item.kind ≠ .int ∧ error = .type "int" item.kind.name) := by
  constructor
  · rintro ⟨fault, hoffends, rfl⟩
    cases hoffends with
    | beyond hrange => exact Or.inl ⟨_, rfl, hrange, rfl⟩
    | notInt hkind => exact Or.inr ⟨hkind, rfl⟩
  · rintro (⟨n, rfl, hrange, rfl⟩ | ⟨hkind, rfl⟩)
    · exact ⟨_, .beyond hrange, rfl⟩
    · exact ⟨_, .notInt hkind, rfl⟩

theorem exists_misspelt_iff {text : String} {error : TransformError} :
    (∃ reason, Octet.Misspelt text reason ∧ (Fault.octet reason).toError = error) ↔
      ((Utf8.encode text).length ≠ 8 ∧ error =
        .format "octet" s!"expected 8 binary digits, found {text.length} characters") ∨
      ((Utf8.encode text).length = 8 ∧
        ∃ before byte after, Utf8.encode text = before ++ byte :: after ∧
          (∀ earlier ∈ before, Octet.IsDigit earlier) ∧ ¬Octet.IsDigit byte ∧
          error = .format "octet" s!"non-binary digit at offset {before.length}") := by
  constructor
  · rintro ⟨reason, hmisspelt, rfl⟩
    cases hmisspelt with
    | wrongLength hlength => exact Or.inl ⟨hlength, rfl⟩
    | nonBinary hlength htext hbefore hbyte =>
        exact Or.inr ⟨hlength, _, _, _, htext, hbefore, hbyte, rfl⟩
  · rintro (⟨hlength, rfl⟩ | ⟨hlength, before, byte, after, htext, hbefore, hbyte, rfl⟩)
    · exact ⟨_, .wrongLength hlength, rfl⟩
    · exact ⟨_, .nonBinary hlength htext hbefore hbyte, rfl⟩

/-- **Octets and lists of integers read back, and nothing else is read.** A value is read as bytes
    exactly if it is the list of integers that is written for them, and a text as an integer exactly
    if it is the octet that is written for it. Any other list fails because of its first item that
    is no integer from 0 to 255: of an integer the index is told, of anything else its kind. Any
    other text is malformed, and if it takes eight bytes, the offset of the first of them that is no
    binary digit is told. -/
theorem octets_read_back :
    (∀ value output, intsToBytes value = .ok output ↔
      ∃ bytes, output = .bytes bytes ∧ bytesToInts (.bytes bytes) = .ok value) ∧
    (∀ text output, octetToInt (.text text) = .ok output ↔
      ∃ n, output = .int n ∧ intToOctet (.int n) = .ok (.text text)) ∧
    (∀ items error, (intsToBytes (.list items)).mapError Fault.toError = .error error ↔
      ∃ (before : Bytes) (item : Value) (after : List Value),
        items = before.map intOf ++ item :: after ∧
        ((∃ n : Int64, item = .int n ∧ (n.toInt < 0 ∨ 255 < n.toInt) ∧
            error = .invalidValue s!"element {before.length} is out of byte range") ∨
          (item.kind ≠ .int ∧ error = .type "int" item.kind.name))) ∧
    (∀ text error, (octetToInt (.text text)).mapError Fault.toError = .error error ↔
      ((Utf8.encode text).length ≠ 8 ∧ error =
        .format "octet" s!"expected 8 binary digits, found {text.length} characters") ∨
      ((Utf8.encode text).length = 8 ∧
        ∃ before byte after, Utf8.encode text = before ++ byte :: after ∧
          (∀ earlier ∈ before, Octet.IsDigit earlier) ∧ ¬Octet.IsDigit byte ∧
          error = .format "octet" s!"non-binary digit at offset {before.length}")) := by
  refine ⟨?_, ?_, ?_, ?_⟩
  · intro value output
    simp only [intsToBytes_eq_ok_iff, bytesToInts_bytes, Except.ok.injEq, @eq_comm _ value]
  · intro text output
    simp only [octetToInt_text_eq_ok_iff, intToOctet_eq_ok_iff]
    constructor
    · rintro ⟨byte, rfl, htext⟩
      exact ⟨_, rfl, byte, rfl, htext⟩
    · rintro ⟨n, rfl, byte, hn, htext⟩
      exact ⟨byte, hn, htext⟩
  · intro items error
    simp only [mapError_eq_error_iff, intsToBytes_list_eq_error_iff, ← exists_offends_iff]
    constructor
    · rintro ⟨fault, ⟨before, item, after, hitems, hoffends⟩, herror⟩
      exact ⟨before, item, after, hitems, fault, hoffends, herror⟩
    · rintro ⟨before, item, after, hitems, fault, hoffends, herror⟩
      exact ⟨fault, ⟨before, item, after, hitems, hoffends⟩, herror⟩
  · intro text error
    rw [← exists_misspelt_iff, mapError_eq_error_iff]
    simp only [octetToInt_text_eq_error_iff]
    constructor
    · rintro ⟨fault, ⟨reason, hmisspelt, rfl⟩, herror⟩
      exact ⟨reason, hmisspelt, herror⟩
    · rintro ⟨reason, hmisspelt, herror⟩
      exact ⟨_, ⟨reason, hmisspelt, rfl⟩, herror⟩

/-- The text takes eight bytes, and the second of them begins a letter. -/
example : octetToInt (.text "0é00001") = .error (.octet (.nonBinary 1)) := rfl

end Pipework.Transform
