import Pipework.Proofs.Codec.Charset
import Pipework.Proofs.Data.Except
import Pipework.Transform.Cast

set_option autoImplicit false

/-! # Casts read back

Text and bytes are cast to each other by a character set, and a cast that succeeds is undone by the
other one (`casts_read_back`). The set is all that a cast takes from its arguments, so the arguments
of the two casts may differ in everything else. -/

namespace Pipework.Transform

variable {set : Charset}

/-! ## Texts and bytes -/

theorem encodeText_eq_ok_iff {text : String} {bytes : Bytes} :
    encodeText set text = .ok bytes ↔ set.encode text = .ok bytes :=
  mapError_eq_ok_iff

theorem decodeBytes_eq_ok_iff {bytes : Bytes} {text : String} :
    decodeBytes set bytes = .ok text ↔ set.decode bytes = .ok text :=
  mapError_eq_ok_iff

theorem encodeText_eq_ok_iff_decodeBytes {text : String} {bytes : Bytes} :
    encodeText set text = .ok bytes ↔ decodeBytes set bytes = .ok text := by
  rw [encodeText_eq_ok_iff, decodeBytes_eq_ok_iff, Charset.encode_eq_ok_iff_decode]

theorem encodeText_of_lacks {text : String} {before after : List Char} {c : Char}
    (htext : text.toList = before ++ c :: after) (hbefore : ∀ earlier ∈ before, ¬set.Lacks earlier)
    (hc : set.Lacks c) : encodeText set text = .error (.unencodable set before.length) :=
  mapError_eq_error_iff.2
    ⟨_, Charset.encode_eq_error_iff.2 ⟨before, c, after, htext, hbefore, hc, rfl⟩, rfl⟩

theorem exists_encodeText_iff {text : String} :
    (∃ bytes, encodeText set text = .ok bytes) ↔ ∀ c ∈ text.toList, ¬set.Lacks c := by
  simp only [encodeText_eq_ok_iff, Charset.exists_encode_iff]

theorem exists_decodeBytes_iff {bytes : Bytes} :
    (∃ text, decodeBytes set bytes = .ok text) ↔ set.WellFormed bytes := by
  simp only [decodeBytes_eq_ok_iff, Charset.exists_decode_iff]

/-- Bytes that are not well formed are refused behind the longest start that can be decoded. -/
theorem exists_longestStart_of_not_wellFormed {bytes : Bytes} (h : ¬set.WellFormed bytes) :
    ∃ start, Bytes.LongestStart (fun other => ∃ text, decodeBytes set other = .ok text) bytes start ∧
      decodeBytes set bytes = .error (.undecodable set start.length) := by
  cases hdecode : set.decode bytes with
  | ok text => exact absurd (Charset.exists_decode_iff.1 ⟨text, hdecode⟩) h
  | error offset =>
      obtain ⟨-, start, hstart, rfl⟩ := Charset.decode_eq_error_iff.1 hdecode
      simp only [exists_decodeBytes_iff]
      exact ⟨start, hstart, mapError_eq_error_iff.2 ⟨_, hdecode, rfl⟩⟩

/-! ## Values -/

variable {args : Arguments}

theorem expectText_eq_ok_iff {value : Value} {text : String} :
    value.expectText = .ok text ↔ value = .text text := by
  cases value <;> simp [Value.expectText]

theorem expectBytes_eq_ok_iff {value : Value} {bytes : Bytes} :
    value.expectBytes = .ok bytes ↔ value = .bytes bytes := by
  cases value <;> simp [Value.expectBytes]

theorem textToBytes_eq_ok_iff (hset : charset args = .ok set) {value other : Value} :
    textToBytes value args = .ok other ↔
      ∃ text bytes, value = .text text ∧ other = .bytes bytes ∧
        encodeText set text = .ok bytes := by
  simp only [textToBytes, hset, bind_eq_ok_iff, pure_eq_ok_iff, expectText_eq_ok_iff,
    Except.ok.injEq, exists_eq_left']
  constructor
  · rintro ⟨text, rfl, bytes, hbytes, rfl⟩
    exact ⟨text, bytes, rfl, rfl, hbytes⟩
  · rintro ⟨text, bytes, rfl, rfl, hbytes⟩
    exact ⟨text, rfl, bytes, hbytes, rfl⟩

theorem bytesToText_eq_ok_iff (hset : charset args = .ok set) {value other : Value} :
    bytesToText other args = .ok value ↔
      ∃ text bytes, value = .text text ∧ other = .bytes bytes ∧
        decodeBytes set bytes = .ok text := by
  simp only [bytesToText, hset, bind_eq_ok_iff, pure_eq_ok_iff, expectBytes_eq_ok_iff,
    Except.ok.injEq, exists_eq_left']
  constructor
  · rintro ⟨bytes, rfl, text, htext, rfl⟩
    exact ⟨text, bytes, rfl, rfl, htext⟩
  · rintro ⟨text, bytes, rfl, rfl, htext⟩
    exact ⟨bytes, rfl, text, htext, rfl⟩

theorem castToText_eq_map (hset : charset args = .ok set) (value : Value) :
    castToText value args = (scalarText set value).map .text := by
  simp only [castToText, hset]
  rfl

theorem castToBytes_bytes (hset : charset args = .ok set) (bytes : Bytes) :
    castToBytes (.bytes bytes) args = .ok (.bytes bytes) := by
  simp only [castToBytes, hset]
  rfl

theorem castToBytes_of_kind_ne (hset : charset args = .ok set) {value : Value}
    (h : value.kind ≠ .bytes) :
    castToBytes value args = do
      let text ← scalarText set value
      let bytes ← encodeText set text
      return .bytes bytes := by
  simp only [castToBytes, hset]
  cases value with
  | bytes b => exact absurd rfl h
  | _ => rfl

/-- The bytes of a value are cast to the text that the value is cast to. -/
theorem castToText_of_castToBytes {writing reading : Arguments}
    (hwriting : charset writing = .ok set) (hreading : charset reading = .ok set)
    {value other : Value} (h : castToBytes value writing = .ok other) :
    castToText other reading = castToText value reading := by
  by_cases hvalue : value.kind = .bytes
  · -- a byte string stays as it is
    cases value <;> cases hvalue
    rw [castToBytes_bytes hwriting] at h
    rw [Except.ok.inj h]
  · rw [castToBytes_of_kind_ne hwriting hvalue] at h
    simp only [bind_eq_ok_iff, pure_eq_ok_iff] at h
    obtain ⟨text, htext, bytes, hbytes, rfl⟩ := h
    have hback : scalarText set (.bytes bytes) = .ok text :=
      encodeText_eq_ok_iff_decodeBytes.1 hbytes
    rw [castToText_eq_map hreading, castToText_eq_map hreading, hback, htext]

/-- **Casts of text and bytes read back.** In every character set, a text has some bytes exactly if
    the bytes decode to the text. A text has none exactly if the set lacks one of its characters, and
    then the number of characters before the first of them is told; bytes are no text exactly if
    they are not well formed, and then the length of the longest start that is text is told. So the
    casts of texts and of byte strings undo each other, and a value that is cast to bytes gives the
    text that the value itself is cast to. -/
theorem casts_read_back (set : Charset) :
    (∀ text bytes, encodeText set text = .ok bytes ↔ decodeBytes set bytes = .ok text) ∧
    (∀ text, (∃ bytes, encodeText set text = .ok bytes) ↔ ∀ c ∈ text.toList, ¬set.Lacks c) ∧
    (∀ (text : String) (before : List Char) (c : Char) (after : List Char),
      text.toList = before ++ c :: after → (∀ earlier ∈ before, ¬set.Lacks earlier) →
        set.Lacks c → (encodeText set text).mapError Fault.toError =
          .error (.invalidValue
            s!"character at offset {before.length} is not representable in {set.label}")) ∧
    (∀ bytes, (∃ text, decodeBytes set bytes = .ok text) ↔ set.WellFormed bytes) ∧
    (∀ bytes, ¬set.WellFormed bytes → ∃ start,
      Bytes.LongestStart (fun other => ∃ text, decodeBytes set other = .ok text) bytes start ∧
        (decodeBytes set bytes).mapError Fault.toError =
          .error (.format set.label (set.reason start.length))) ∧
    (∀ writing reading, charset writing = .ok set → charset reading = .ok set →
      ∀ value other,
        (textToBytes value writing = .ok other ↔ bytesToText other reading = .ok value) ∧
        (castToBytes value writing = .ok other →
          castToText other reading = castToText value reading)) := by
  refine ⟨fun _ _ => encodeText_eq_ok_iff_decodeBytes, fun _ => exists_encodeText_iff, ?_,
    fun _ => exists_decodeBytes_iff, ?_, ?_⟩
  · intro text before c after htext hbefore hc
    rw [encodeText_of_lacks htext hbefore hc]
    rfl
  · intro bytes hbytes
    obtain ⟨start, hstart, herror⟩ := exists_longestStart_of_not_wellFormed hbytes
    refine ⟨start, hstart, ?_⟩
    rw [herror]
    rfl
  · intro writing reading hwriting hreading value other
    refine ⟨?_, castToText_of_castToBytes hwriting hreading⟩
    rw [textToBytes_eq_ok_iff hwriting, bytesToText_eq_ok_iff hreading]
    simp only [encodeText_eq_ok_iff_decodeBytes]

end Pipework.Transform
