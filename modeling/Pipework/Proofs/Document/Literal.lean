import Pipework.Document.Value
import Pipework.Proofs.Transform.Base64
import Pipework.Proofs.Transform.Hex

set_option autoImplicit false

/-! # Byte strings in documents

What stands under a tag in a document is read much as the transforms read it, and differs in the
blanks that are ignored: under `!hex` and `!base64` those at either end, in `hexToBytes` all of them,
and in `base64ToBytes` those at the end alone. So a text under a tag and the same text given to the
transform are the same bytes unless blanks stand where only one of the two ignores them
(`Document.literals_correspond`), and what the transforms write can be put under the tag. -/

namespace Pipework.Document

open Transform

/-! ## Texts under tags -/

theorem toValue_hex_eq_ok_iff {text : String} {bytes : Bytes} :
    toValue (.tagged "hex" (.text text)) = .ok (.bytes bytes) ↔
      Hex.Reads (Text.trim text.toList) bytes := by
  rw [toValue, literal, if_pos rfl, ← Hex.decodePairs_eq_some_iff]
  cases Hex.decodePairs (Text.trim text.toList) <;> simp

theorem toValue_base64_eq_ok_iff {text : String} {bytes : Bytes} :
    toValue (.tagged "base64" (.text text)) = .ok (.bytes bytes) ↔
      Text.trim text.toList = Base64.encode bytes := by
  rw [toValue, literal, if_neg (by decide), if_pos rfl, eq_comm (a := Text.trim text.toList),
    ← Base64.decode_eq_ok_iff]
  cases Base64.decode (Text.trim text.toList) <;> simp

/-! ## Hexadecimal text -/

/-- Under the tag, no blanks may stand between the digits. -/
theorem toValue_hex_iff_hexToBytes {text : String} {bytes : Bytes} :
    toValue (.tagged "hex" (.text text)) = .ok (.bytes bytes) ↔
      hexToBytes (.text text) = .ok (.bytes bytes) ∧
        ∀ c ∈ Text.trim text.toList, Text.isBlank c = false := by
  rw [toValue_hex_eq_ok_iff, hexToBytes_text_eq_ok_iff, Hex.decode_eq_ok_iff_reads]
  constructor
  · intro h
    have hvisible := h.isBlank_eq_false
    exact ⟨(Hex.dense_eq_trim hvisible).symm ▸ h, hvisible⟩
  · rintro ⟨h, hvisible⟩
    exact Hex.dense_eq_trim hvisible ▸ h

/-! ## Base64 -/

theorem base64ToBytes_of_toValue {text : String} {bytes : Bytes}
    (hhead : ∀ c ∈ text.toList.head?, Text.isBlank c = false)
    (h : toValue (.tagged "base64" (.text text)) = .ok (.bytes bytes)) :
    base64ToBytes (.text text) = .ok (.bytes bytes) := by
  rw [toValue_base64_eq_ok_iff, Text.trim_eq_trimEnd hhead] at h
  exact base64ToBytes_text_eq_ok_iff.2 h

theorem toValue_of_base64ToBytes {text : String} {bytes : Bytes}
    (h : base64ToBytes (.text text) = .ok (.bytes bytes)) :
    toValue (.tagged "base64" (.text text)) = .ok (.bytes bytes) := by
  have hvisible : ∀ c ∈ Base64.encode bytes, Text.isBlank c = false := fun c hc =>
    Base64.isBlank_of_mem_encode hc
  rw [base64ToBytes_text_eq_ok_iff, Text.trimEnd_eq_iff hvisible] at h
  obtain ⟨blanks, hblanks, htext⟩ := h
  rw [toValue_base64_eq_ok_iff, Text.trim_eq_iff hvisible]
  exact ⟨[], blanks, nofun, hblanks, htext⟩

/-! ## Both notations -/

/-- **What is under a tag is what the transform reads, and what the transform writes can be put under
    the tag.** Hexadecimal text is read under the tag exactly if the transform reads it and no blank
    stands between its digits. Base64 that is read under the tag is read by the transform if it does
    not start with a blank, and what the transform reads is read under the tag, always as the same
    bytes. The text of a byte string, hexadecimal in either case and not split into blocks or in
    base64, is this byte string under the tag whatever blanks stand around it. -/
theorem literals_correspond (text : String) (bytes : Bytes) :
    (toValue (.tagged "hex" (.text text)) = .ok (.bytes bytes) ↔
      hexToBytes (.text text) = .ok (.bytes bytes) ∧
        ∀ c ∈ Text.trim text.toList, Text.isBlank c = false) ∧
    (toValue (.tagged "base64" (.text text)) = .ok (.bytes bytes) →
      (∀ c ∈ text.toList.head?, Text.isBlank c = false) →
      base64ToBytes (.text text) = .ok (.bytes bytes)) ∧
    (base64ToBytes (.text text) = .ok (.bytes bytes) →
      toValue (.tagged "base64" (.text text)) = .ok (.bytes bytes)) ∧
    (∀ before after : String, (∀ c ∈ before.toList, Text.isBlank c = true) →
      (∀ c ∈ after.toList, Text.isBlank c = true) →
      (∀ (layout : HexLayout) (args : Arguments), layout.IsBoundIn args →
        layout.between = [] ∨ layout.size = 0 →
        ∃ code, bytesToHex (.bytes bytes) args = .ok (.text code) ∧
          toValue (.tagged "hex" (.text (before ++ code ++ after))) = .ok (.bytes bytes)) ∧
      ∃ code, bytesToBase64 (.bytes bytes) = .ok (.text code) ∧
        toValue (.tagged "base64" (.text (before ++ code ++ after))) = .ok (.bytes bytes)) := by
  refine ⟨toValue_hex_iff_hexToBytes, fun h hhead => base64ToBytes_of_toValue hhead h,
    toValue_of_base64ToBytes, fun before after hbefore hafter => ⟨?_, ?_⟩⟩
  · intro layout args hargs hplain
    refine ⟨_, bytesToHex_of_isBoundIn hargs bytes, ?_⟩
    have hreads := Hex.decodePairs_eq_some_iff.1 (Hex.decodePairs_encode layout.isUpper bytes)
    have htrim := (Text.trim_eq_iff hreads.isBlank_eq_false).2
      ⟨before.toList, after.toList, hbefore, hafter, rfl⟩
    rw [toValue_hex_eq_ok_iff, layout.encodeBlocks_eq_encode hplain, String.toList_append,
      String.toList_append, String.toList_ofList, htrim]
    exact hreads
  · refine ⟨_, bytesToBase64_bytes bytes, ?_⟩
    have hvisible : ∀ c ∈ Base64.encode bytes, Text.isBlank c = false := fun c hc =>
      Base64.isBlank_of_mem_encode hc
    have htrim := (Text.trim_eq_iff hvisible).2
      ⟨before.toList, after.toList, hbefore, hafter, rfl⟩
    rw [toValue_base64_eq_ok_iff, String.toList_append, String.toList_append,
      String.toList_ofList, htrim]

/-- Only the transform ignores the blank between the digits. -/
example : toValue (.tagged "hex" (.text "be ef")) = .error .badHex ∧
    hexToBytes (.text "be ef") = .ok (.bytes [0xBE, 0xEF]) := ⟨rfl, rfl⟩

end Pipework.Document
