import Pipework.Crypto.Gcm

set_option autoImplicit false

/-! # Opening undoes sealing

Adding the keystream twice gives a text back, since the keystream depends on the length of a text
alone and both texts are equally long. Together with the tag, which sealing and opening compute of
the same ciphertext, this makes opening accept exactly what sealing produces
(`opened_eq_some_iff`). -/

namespace Pipework.Gcm

open Aes (Block)

theorem length_keystream (cipher : Block → Block) (nonce : Nonce) (n : UInt32) (count : Nat) :
    (keystream cipher nonce n count).length = 16 * count := by
  induction count generalizing n with
  | zero => rfl
  | succ count ih =>
      rw [keystream, List.length_append, Block.length_toBytes, ih]
      omega

@[simp] theorem length_addKeystream (cipher : Block → Block) (nonce : Nonce) (text : Bytes) :
    (addKeystream cipher nonce text).length = text.length := by
  simp only [addKeystream, List.length_zipWith, length_keystream]
  omega

/-- Bytes that are added twice cancel. -/
theorem zipWith_xor_cancel (text stream : Bytes) (h : text.length ≤ stream.length) :
    List.zipWith (· ^^^ ·) (List.zipWith (· ^^^ ·) text stream) stream = text := by
  induction text generalizing stream with
  | nil => rfl
  | cons a text ih =>
      cases stream with
      | nil => exact absurd h (Nat.not_succ_le_zero _)
      | cons b stream =>
          rw [List.zipWith_cons_cons, List.zipWith_cons_cons,
            ih stream (Nat.le_of_succ_le_succ h), UInt8.xor_assoc, UInt8.xor_self, UInt8.xor_zero]

theorem addKeystream_addKeystream (cipher : Block → Block) (nonce : Nonce) (text : Bytes) :
    addKeystream cipher nonce (addKeystream cipher nonce text) = text := by
  rw [addKeystream, length_addKeystream, addKeystream]
  apply zipWith_xor_cancel
  rw [length_keystream]
  omega

theorem length_tag (cipher : Block → Block) (nonce : Nonce) (associated ciphertext : Bytes) :
    (tag cipher nonce associated ciphertext).length = tagLength :=
  Block.length_toBytes _

/-- **Opening accepts what sealing produces**, and nothing else. -/
theorem opened_eq_some_iff (key : Aes.Key) (nonce : Nonce)
    (associated plaintext ciphertext mark : Bytes) :
    opened key nonce associated ciphertext mark = some plaintext ↔
      sealed key nonce associated plaintext = (ciphertext, mark) := by
  simp only [opened, sealed, Prod.mk.injEq]
  constructor
  · intro h
    split at h
    · next hmark =>
        have hplain := Option.some.inj h
        have hcipher : addKeystream (blockCipher key) nonce plaintext = ciphertext := by
          rw [← hplain, addKeystream_addKeystream]
        exact ⟨hcipher, by rw [hcipher, hmark]⟩
    · cases h
  · rintro ⟨rfl, rfl⟩
    rw [if_pos rfl, addKeystream_addKeystream]

theorem length_of_sealed_eq {key : Aes.Key} {nonce : Nonce}
    {associated plaintext ciphertext mark : Bytes}
    (h : sealed key nonce associated plaintext = (ciphertext, mark)) :
    ciphertext.length = plaintext.length ∧ mark.length = tagLength := by
  simp only [sealed, Prod.mk.injEq] at h
  obtain ⟨rfl, rfl⟩ := h
  exact ⟨length_addKeystream .., length_tag ..⟩

end Pipework.Gcm
