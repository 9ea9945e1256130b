import Pipework.Proofs.Arguments
import Pipework.Proofs.Crypto.Gcm
import Pipework.Proofs.Data.Except
import Pipework.Transform.Aead

set_option autoImplicit false

/-! # What opens is what was sealed

`aeadDecrypt` gives the plaintext of a box exactly if `aeadEncrypt` makes that box of it under the
same key, once the nonce and the associated data of the box are bound
(`aeadDecrypt_opens_iff_sealed`). Both transforms are first brought into one form each
(`aeadEncrypt_eq_ok_iff`, `aeadDecrypt_eq_ok_iff`), which lists what they need to succeed; the
ciphers then meet in `Gcm.opened_eq_some_iff`. -/

namespace Pipework.Transform

/-! ## Conditions of success -/

/-- The cipher key depends on nothing but the bytes bound to `key`. -/
theorem cipherKey_congr {args other : Arguments}
    (h : Parameter.key.bytes args = Parameter.key.bytes other) :
    cipherKey args = cipherKey other := by
  rw [cipherKey, cipherKey, h]

/-- A bound nonce is taken as it is if it has the right length; nothing is drawn. -/
theorem boundNonce_eq_ok_iff_of_bound {source : RandomSource} {args : Arguments} {bytes : Bytes}
    (h : Parameter.nonce.bytes? args = .ok (some bytes)) {nonce : Gcm.Nonce} :
    boundNonce source args = .ok nonce ↔ nonce.bytes = bytes := by
  have hbound : boundNonce source args =
      if h : bytes.length = Gcm.nonceLength then .ok ⟨bytes, h⟩
      else .error (.argument .nonce (.badNonce Gcm.nonceLength bytes.length)) := by
    rw [boundNonce, h]
    rfl
  rw [hbound]
  constructor
  · intro hnonce
    split at hnonce
    · rw [← Except.ok.inj hnonce]
    · cases hnonce
  · rintro rfl
    rw [dif_pos nonce.size]

theorem aeadEncrypt_eq_ok_iff {source : RandomSource} {value : Value} {args : Arguments}
    {result : Value} :
    aeadEncrypt source value args = .ok result ↔
      ∃ plaintext key associated nonce box, value.expectByteLike = .ok plaintext ∧
        cipherKey args = .ok key ∧ Parameter.associated.bytes? args = .ok associated ∧
        boundNonce source args = .ok nonce ∧ nonce.bytes = box.nonce ∧
        associated.getD [] = box.associated ∧
        Gcm.sealed key nonce box.associated plaintext = (box.ciphertext, box.tag) ∧
        result = .sealedBox box := by
  simp only [aeadEncrypt, bind_eq_ok_iff, pure_eq_ok_iff]
  constructor
  · rintro ⟨plaintext, hplain, key, hkey, associated, hassoc, nonce, hnonce, rfl⟩
    exact ⟨plaintext, key, associated, nonce, _, hplain, hkey, hassoc, hnonce, rfl, rfl, rfl, rfl⟩
  · rintro ⟨plaintext, key, associated, nonce, ⟨n, a, c, t⟩, hplain, hkey, hassoc, hnonce, rfl, rfl,
      hsealed, rfl⟩
    refine ⟨plaintext, hplain, key, hkey, associated, hassoc, nonce, hnonce, ?_⟩
    simp only [hsealed]

theorem aeadDecrypt_eq_ok_iff {value : Value} {args : Arguments} {result : Value} :
    aeadDecrypt value args = .ok result ↔
      ∃ box key nonce plaintext, SealedBox.ofValue value = .ok box ∧ cipherKey args = .ok key ∧
        nonce.bytes = box.nonce ∧
        Gcm.sealed key nonce box.associated plaintext = (box.ciphertext, box.tag) ∧
        result = .bytes plaintext := by
  simp only [aeadDecrypt, bind_eq_ok_iff]
  constructor
  · rintro ⟨box, hbox, key, hkey, h⟩
    split at h
    · next hnonce =>
        split at h
        · split at h
          · next plaintext hopened =>
              have hsealed := (Gcm.opened_eq_some_iff ..).1 hopened
              exact ⟨box, key, ⟨box.nonce, hnonce⟩, plaintext, hbox, hkey, rfl, hsealed,
                (pure_eq_ok_iff.1 h).symm⟩
          · cases h
        · cases h
    · cases h
  · rintro ⟨box, key, nonce, plaintext, hbox, hkey, hnonce, hsealed, rfl⟩
    refine ⟨box, hbox, key, hkey, ?_⟩
    have hsize : box.nonce.length = Gcm.nonceLength := hnonce ▸ nonce.size
    have htag : box.tag.length = Gcm.tagLength := (Gcm.length_of_sealed_eq hsealed).2
    -- a nonce is its bytes
    have hsame : nonce = ⟨box.nonce, hsize⟩ := by
      cases nonce
      cases hnonce
      rfl
    have hopened := (Gcm.opened_eq_some_iff ..).2 (hsame ▸ hsealed)
    rw [dif_pos hsize, if_pos htag, hopened]
    rfl

/-! ## The same key, nonce and associated data -/

/-- Under `sealing` a box is made with the key bound in `opening`, and with the nonce and the
    associated data of `box`. -/
structure Rebinds (opening sealing : Arguments) (box : SealedBox) : Prop where
  key : Parameter.key.bytes sealing = Parameter.key.bytes opening
  associated : Parameter.associated.bytes? sealing = .ok (some box.associated)
  nonce : Parameter.nonce.bytes? sealing = .ok (some box.nonce)

/-- Arguments are rebound to a box by binding two of them by name. -/
theorem rebinds_withNamed (opening : Arguments) (box : SealedBox) :
    Rebinds opening
      ((opening.withNamed Parameter.associated.name (.bytes box.associated)).withNamed
        Parameter.nonce.name (.bytes box.nonce)) box where
  key := by
    rw [Parameter.bytes_withNamed_of_ne (by decide), Parameter.bytes_withNamed_of_ne (by decide)]
  associated := by
    rw [Parameter.bytes?_withNamed_of_ne (by decide), Parameter.bytes?_withNamed_self]
  nonce := Parameter.bytes?_withNamed_self ..

theorem aeadDecrypt_eq_ok_iff_aeadEncrypt {value : Value} {box : SealedBox}
    (hbox : SealedBox.ofValue value = .ok box) {opening sealing : Arguments}
    (h : Rebinds opening sealing box) (source : RandomSource) (plaintext : Bytes) :
    aeadDecrypt value opening = .ok (.bytes plaintext) ↔
      aeadEncrypt source (.bytes plaintext) sealing = .ok (.sealedBox box) := by
  rw [aeadDecrypt_eq_ok_iff, aeadEncrypt_eq_ok_iff]
  constructor
  · rintro ⟨box', key, nonce, plaintext', hbox', hkey, hnonce, hsealed, hresult⟩
    obtain rfl := Except.ok.inj (hbox.symm.trans hbox')
    obtain rfl := Value.bytes.inj hresult
    exact ⟨plaintext, key, some box.associated, nonce, box, rfl,
      (cipherKey_congr h.key).trans hkey, h.associated,
      (boundNonce_eq_ok_iff_of_bound h.nonce).2 hnonce, hnonce, rfl, hsealed, rfl⟩
  · rintro ⟨plaintext', key, associated, nonce, box', hplain, hkey, -, -, hnonce, -, hsealed,
      hresult⟩
    obtain rfl := Value.sealedBox.inj hresult
    obtain rfl := Except.ok.inj hplain
    exact ⟨box, key, nonce, plaintext, hbox, (cipherKey_congr h.key).symm.trans hkey, hnonce,
      hsealed, rfl⟩

/-! ## Boxes and their plaintexts -/

/-- **A box opens to what it was made of.** Let `value` be a box or the map form of one. It opens to
    some bytes exactly if sealing these bytes with the same key, nonce and associated data gives
    that box, whatever random bytes are at hand; so nothing else ever opens. A box that was made
    under the same key, with a nonce that was bound or drawn, opens to its plaintext, and its parts
    have the right lengths. -/
theorem aeadDecrypt_opens_iff_sealed (value : Value) (box : SealedBox)
    (hbox : SealedBox.ofValue value = .ok box) (opening : Arguments) :
    (∀ sealing, Rebinds opening sealing box → ∀ (source : RandomSource) (plaintext : Bytes),
      aeadDecrypt value opening = .ok (.bytes plaintext) ↔
        aeadEncrypt source (.bytes plaintext) sealing = .ok (.sealedBox box)) ∧
    (∀ opened, aeadDecrypt value opening = .ok opened →
      ∃ plaintext sealing, opened = .bytes plaintext ∧ Rebinds opening sealing box ∧
        ∀ source, aeadEncrypt source (.bytes plaintext) sealing = .ok (.sealedBox box)) ∧
    (∀ (source : RandomSource) (input : Value) (sealing : Arguments),
      Parameter.key.bytes sealing = Parameter.key.bytes opening →
      aeadEncrypt source input sealing = .ok (.sealedBox box) →
      ∃ plaintext, input.expectByteLike = .ok plaintext ∧
        aeadDecrypt value opening = .ok (.bytes plaintext) ∧
        box.ciphertext.length = plaintext.length ∧ box.tag.length = 16) := by
  refine ⟨fun sealing h => aeadDecrypt_eq_ok_iff_aeadEncrypt hbox h, ?_, ?_⟩
  · intro opened hopened
    -- what opens is a byte string, so the equivalence applies to it
    obtain ⟨-, -, -, plaintext, -, -, -, -, rfl⟩ := aeadDecrypt_eq_ok_iff.1 hopened
    have hrebinds := rebinds_withNamed opening box
    exact ⟨plaintext, _, rfl, hrebinds, fun source =>
      (aeadDecrypt_eq_ok_iff_aeadEncrypt hbox hrebinds source plaintext).1 hopened⟩
  · intro source input sealing hsame hsealing
    obtain ⟨plaintext, key, associated, nonce, box', hplain, hkey, -, -, hnonce, -, hsealed,
      hresult⟩ := aeadEncrypt_eq_ok_iff.1 hsealing
    obtain rfl := Value.sealedBox.inj hresult
    have hopen : aeadDecrypt value opening = .ok (.bytes plaintext) :=
      aeadDecrypt_eq_ok_iff.2 ⟨box, key, nonce, plaintext, hbox,
        (cipherKey_congr hsame).symm.trans hkey, hnonce, hsealed, rfl⟩
    exact ⟨plaintext, hplain, hopen, Gcm.length_of_sealed_eq hsealed⟩

/-- A box in its map form that was sealed with a drawn nonce under a key given as text. -/
theorem aeadDecrypt_opens_map_form :
    ∃ (box : SealedBox) (entries : Dict Value) (args : Arguments),
      SealedBox.ofValue (.map entries) = .ok box ∧
      aeadDecrypt (.map entries) args = .ok (.bytes [0x68, 0x69]) := by
  let key : Aes.Key := ⟨Utf8.encode "0123456789abcdef", by decide⟩
  let nonce : Gcm.Nonce := drawNonce ⟨fun _ => 7⟩
  let box : SealedBox :=
    { nonce := nonce.bytes
      associated := []
      ciphertext := (Gcm.sealed key nonce [] [0x68, 0x69]).1
      tag := (Gcm.sealed key nonce [] [0x68, 0x69]).2 }
  let entries : Dict Value := Dict.ofList
    [("nonce", .bytes box.nonce), ("ciphertext", .bytes box.ciphertext), ("tag", .bytes box.tag)]
  let args : Arguments := ⟨[.text "0123456789abcdef"], .empty⟩
  have hbox : SealedBox.ofValue (.map entries) = .ok box := rfl
  have hsealed : aeadEncrypt ⟨fun _ => 7⟩ (.text "hi") args = .ok (.sealedBox box) := rfl
  obtain ⟨plaintext, hplain, hopened, -⟩ :=
    (aeadDecrypt_opens_iff_sealed (.map entries) box hbox args).2.2 _ _ args rfl hsealed
  obtain rfl := Except.ok.inj hplain
  exact ⟨box, entries, args, hbox, hopened⟩

end Pipework.Transform
