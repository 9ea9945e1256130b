import Pipework.Proofs.Codec.Base64
import Pipework.Proofs.Text.Blank
import Pipework.Transform.Notation

set_option autoImplicit false

/-! # Base64 text of byte strings

There is one base64 text for every byte string, and `base64ToBytes` reads a text as that byte string
exactly if it is this one, blanks at its end apart (`base64ToBytes_bytesToBase64_iff`). -/

namespace Pipework.Transform

theorem bytesToBase64_bytes (bytes : Bytes) :
    bytesToBase64 (.bytes bytes) = .ok (.text (String.ofList (Base64.encode bytes))) :=
  rfl

theorem base64ToBytes_text (text : String) :
    base64ToBytes (.text text) =
      match Base64.decode (Text.trimEnd text.toList) with
      | .ok bytes => .ok (.bytes bytes)
      | .error e => .error (.base64 e) := by
  show ((Base64.decode (Text.trimEnd text.toList)).mapError Fault.base64 >>= fun bytes =>
    pure (Value.bytes bytes)) = _
  cases Base64.decode (Text.trimEnd text.toList) <;> rfl

theorem base64ToBytes_text_eq_ok_iff {text : String} {bytes : Bytes} :
    base64ToBytes (.text text) = .ok (.bytes bytes) ↔
      Text.trimEnd text.toList = Base64.encode bytes := by
  rw [base64ToBytes_text, eq_comm (a := Text.trimEnd text.toList), ← Base64.decode_eq_ok_iff]
  cases Base64.decode (Text.trimEnd text.toList) <;> simp

/-- A text that spells no bytes is malformed. -/
theorem exists_base64ToBytes_text_eq_error {text : String}
    (h : ∀ bytes, base64ToBytes (.text text) ≠ .ok (.bytes bytes)) :
    ∃ reason, (base64ToBytes (.text text)).mapError Fault.toError =
      .error (.format "base64" reason) := by
  rw [base64ToBytes_text] at h ⊢
  cases hdecode : Base64.decode (Text.trimEnd text.toList) with
  | ok bytes => exact absurd (by rw [hdecode]) (h bytes)
  | error e => exact ⟨e.reason, rfl⟩

/-- **A text is read as bytes exactly if it is their base64 text with blanks at its end.** Every byte
    string has such a text, which gives it back. A text that is that of no byte string is malformed,
    and two texts that give the same byte string differ in the blanks at their ends alone. -/
theorem base64ToBytes_bytesToBase64_iff (text : String) :
    (∀ bytes : Bytes, ∃ code : String,
      bytesToBase64 (.bytes bytes) = .ok (.text code) ∧ Base64.Spells bytes code.toList ∧
      base64ToBytes (.text code) = .ok (.bytes bytes) ∧
      (base64ToBytes (.text text) = .ok (.bytes bytes) ↔
        Text.trimEnd text.toList = code.toList) ∧
      (base64ToBytes (.text text) = .ok (.bytes bytes) ↔
        ∃ blanks, (∀ c ∈ blanks, Text.isBlank c = true) ∧ text.toList = code.toList ++ blanks)) ∧
    ((∀ bytes, base64ToBytes (.text text) ≠ .ok (.bytes bytes)) →
      ∃ reason, (base64ToBytes (.text text)).mapError Fault.toError =
        .error (.format "base64" reason)) ∧
    (∀ (other : String) (bytes : Bytes), base64ToBytes (.text text) = .ok (.bytes bytes) →
      base64ToBytes (.text other) = .ok (.bytes bytes) →
      Text.trimEnd text.toList = Text.trimEnd other.toList) := by
  refine ⟨fun bytes => ?_, exists_base64ToBytes_text_eq_error, ?_⟩
  · have hcode : (String.ofList (Base64.encode bytes)).toList = Base64.encode bytes :=
      String.toList_ofList
    have hvisible : ∀ c ∈ Base64.encode bytes, Text.isBlank c = false := fun c hc =>
      Base64.isBlank_of_mem_encode hc
    refine ⟨_, bytesToBase64_bytes bytes, ?_, ?_, ?_, ?_⟩
    · rw [hcode]
      exact Base64.spells_encode bytes
    · rw [base64ToBytes_text_eq_ok_iff, hcode, Text.trimEnd_of_not_isBlank hvisible]
    · rw [base64ToBytes_text_eq_ok_iff, hcode]
    · rw [base64ToBytes_text_eq_ok_iff, hcode, Text.trimEnd_eq_iff hvisible]
  · intro other bytes htext hother
    rw [base64ToBytes_text_eq_ok_iff] at htext hother
    rw [htext, hother]

end Pipework.Transform
