import Pipework.Proofs.Codec.Base64
import Pipework.Proofs.Crypto.Gcm
import Pipework.Proofs.Data.Dict
import Pipework.Proofs.Data.Except
import Pipework.Proofs.Text.Split
import Pipework.Transform.Envelope

set_option autoImplicit false

/-! # Envelopes read back

`Envelope.ofEntries_eq_ok_iff` says which maps are envelopes, and of which: the parameters are four
pieces between separators, and no piece holds a separator itself, so the pieces are found again. In
particular the map form of an envelope gives it back (`exists_entries_of_toValue`), and with the
secret it was closed under it opens to its payload (`open?_close`). -/

namespace Pipework

namespace Envelope

/-! ## Parts -/

theorem textField_eq_ok_iff {entries : Dict Value} {part : EnvelopePart} {s : String} :
    textField entries part = .ok s ↔ entries.get? part.name = some (.text s) := by
  rw [textField]
  cases hget : entries.get? part.name with
  | none => simp
  | some value => cases value <;> simp [Value.text?]

theorem decodePart_eq_ok_iff {part : EnvelopePart} {chars : List Char} {bytes : Bytes} :
    decodePart part chars = .ok bytes ↔ Base64.encode bytes = chars := by
  rw [decodePart, ← Base64.decode_eq_ok_iff]
  cases Base64.decode chars <;> simp

theorem decodeRounds_eq_ok_iff {chars : List Char} {rounds : Nat} :
    decodeRounds chars = .ok rounds ↔
      Text.nat32? chars = some rounds ∧ minRounds ≤ rounds ∧ rounds ≤ maxRounds := by
  rw [decodeRounds]
  cases Text.nat32? chars with
  | none => simp
  | some n =>
      simp only [Option.some.injEq]
      constructor
      · intro h
        split at h
        · next hrange =>
            obtain rfl := Except.ok.inj h
            exact ⟨rfl, hrange⟩
        · cases h
      · rintro ⟨rfl, hrange⟩
        rw [if_pos hrange]

/-! ## Map form -/

/-- The parameters of an envelope whose number of rounds is spelled `rounds`. -/
def parameterPieces (rounds : List Char) (envelope : Envelope) : List (List Char) :=
  [rounds, Base64.encode envelope.salt, Base64.encode envelope.iv.bytes,
    Base64.encode envelope.tag]

theorem intercalate_parameterPieces (padding : List Char) (envelope : Envelope) :
    [separator].intercalate
        (envelope.parameterPieces (padding ++ Decimal.digitChars envelope.rounds)) =
      padding ++ envelope.parameterChars := by
  simp only [parameterPieces, parameterChars, List.intercalate_cons_cons,
    List.intercalate_singleton, List.append_assoc, List.cons_append, List.nil_append]

theorem separator_not_mem_encode (bytes : Bytes) : separator ∉ Base64.encode bytes := by
  intro h
  rcases Base64.eq_padding_or_symbol_of_mem_encode h with h | ⟨value, hlt, h⟩
  · exact absurd h (by decide)
  · revert h
    decide +revert

theorem separator_not_mem_of_nat32? {chars : List Char} {n : Nat}
    (h : Text.nat32? chars = some n) : separator ∉ chars := by
  intro hmem
  exact absurd (Text.of_mem_of_nat32? h hmem) (by decide)

/-- No piece holds a separator, so splitting finds the pieces again. -/
theorem splitOn_parameterPieces {rounds : List Char} {n : Nat}
    (h : Text.nat32? rounds = some n) (envelope : Envelope) :
    Text.splitOn separator ([separator].intercalate (envelope.parameterPieces rounds)) =
      envelope.parameterPieces rounds := by
  rw [Text.splitOn_eq_splitOn]
  refine List.splitOn_intercalate separator ?_ (List.cons_ne_nil _ _)
  intro piece hpiece
  simp only [parameterPieces, List.mem_cons, List.not_mem_nil, or_false] at hpiece
  rcases hpiece with rfl | rfl | rfl | rfl
  · exact separator_not_mem_of_nat32? h
  · exact separator_not_mem_encode _
  · exact separator_not_mem_encode _
  · exact separator_not_mem_encode _

/-- **Which maps are envelopes.** The number of rounds may be spelled in more than one way, all
    other parts in one. -/
theorem ofEntries_eq_ok_iff {entries : Dict Value} {envelope : Envelope} :
    ofEntries entries = .ok envelope ↔
      ∃ rounds parameters data,
        entries.get? EnvelopePart.parameters.name = some (.text parameters) ∧
        entries.get? EnvelopePart.data.name = some (.text data) ∧
        parameters.toList = [separator].intercalate (envelope.parameterPieces rounds) ∧
        data.toList = Base64.encode envelope.data ∧
        Text.nat32? rounds = some envelope.rounds ∧
        (minRounds ≤ envelope.rounds ∧ envelope.rounds ≤ maxRounds) ∧
        envelope.tag.length = Gcm.tagLength := by
  constructor
  · intro h
    simp only [ofEntries, bind_eq_ok_iff] at h
    obtain ⟨parameters, hparameters, h⟩ := h
    split at h
    · next rounds salt iv tag hpieces =>
        simp only [bind_eq_ok_iff] at h
        obtain ⟨n, hrounds, saltBytes, hsalt, ivBytes, hiv, tagBytes, htag, h⟩ := h
        split at h
        · split at h
          · next hivLength htagLength =>
              simp only [bind_eq_ok_iff, pure_eq_ok_iff] at h
              obtain ⟨text, htext, data, hdata, rfl⟩ := h
              obtain ⟨hnat, hrange⟩ := decodeRounds_eq_ok_iff.1 hrounds
              refine ⟨rounds, parameters, text, textField_eq_ok_iff.1 hparameters,
                textField_eq_ok_iff.1 htext, ?_, (decodePart_eq_ok_iff.1 hdata).symm, hnat, hrange,
                htagLength⟩
              rw [parameterPieces, decodePart_eq_ok_iff.1 hsalt, decodePart_eq_ok_iff.1 hiv,
                decodePart_eq_ok_iff.1 htag, ← hpieces, Text.splitOn_eq_splitOn,
                List.intercalate_splitOn]
          · cases h
        · cases h
    · cases h
  · rintro ⟨rounds, parameters, data, hparameters, hdata, hpieces, hbytes, hnat, hrange, htag⟩
    have hsplit : Text.splitOn separator parameters.toList = envelope.parameterPieces rounds := by
      rw [hpieces, splitOn_parameterPieces hnat]
    have hrounds := decodeRounds_eq_ok_iff.2 ⟨hnat, hrange⟩
    simp only [ofEntries, bind_eq_ok_iff]
    refine ⟨parameters, textField_eq_ok_iff.2 hparameters, ?_⟩
    rw [hsplit]
    simp only [parameterPieces, bind_eq_ok_iff]
    refine ⟨_, hrounds, _, decodePart_eq_ok_iff.2 rfl, _, decodePart_eq_ok_iff.2 rfl, _,
      decodePart_eq_ok_iff.2 rfl, ?_⟩
    rw [dif_pos envelope.iv.size, if_pos htag]
    simp only [bind_eq_ok_iff, pure_eq_ok_iff]
    exact ⟨data, textField_eq_ok_iff.2 hdata, envelope.data, decodePart_eq_ok_iff.2 hbytes.symm,
      rfl⟩

theorem exists_toValue_eq (envelope : Envelope) :
    ∃ entries, envelope.toValue = .map entries ∧
      entries.get? EnvelopePart.parameters.name =
        some (.text (String.ofList envelope.parameterChars)) ∧
      entries.get? EnvelopePart.data.name =
        some (.text (String.ofList (Base64.encode envelope.data))) := by
  refine ⟨_, rfl, ?_, ?_⟩
  · show ((Dict.empty.insert _ _).insert _ _).get? _ = _
    rw [Dict.get?_insert, if_neg (by decide), Dict.get?_insert, if_pos rfl]
  · show ((Dict.empty.insert _ _).insert _ _).get? _ = _
    rw [Dict.get?_insert, if_pos rfl]

/-- An envelope is read back from its map form. -/
theorem exists_entries_of_toValue {envelope : Envelope}
    (hrange : minRounds ≤ envelope.rounds ∧ envelope.rounds ≤ maxRounds)
    (htag : envelope.tag.length = Gcm.tagLength) :
    ∃ entries, envelope.toValue = .map entries ∧ ofEntries entries = .ok envelope := by
  have hfits : envelope.rounds < 0x100000000 := Nat.lt_of_le_of_lt hrange.2 (by decide)
  obtain ⟨entries, hentries, hparameters, hdata⟩ := envelope.exists_toValue_eq
  refine ⟨entries, hentries, ofEntries_eq_ok_iff.2 ⟨Decimal.digitChars envelope.rounds, _, _,
    hparameters, hdata, ?_, String.toList_ofList, Text.nat32?_digitChars hfits, hrange, htag⟩⟩
  rw [String.toList_ofList]
  exact (intercalate_parameterPieces [] envelope).symm

/-! ## Closing and opening -/

theorem length_tag_close (secret : Bytes) (rounds : Nat) (salt : Bytes) (iv : Gcm.Nonce)
    (payload : Bytes) : (close secret rounds salt iv payload).tag.length = Gcm.tagLength :=
  Gcm.length_tag ..

theorem open?_close (secret : Bytes) (rounds : Nat) (salt : Bytes) (iv : Gcm.Nonce)
    (payload : Bytes) : (close secret rounds salt iv payload).open? secret = some payload :=
  (Gcm.opened_eq_some_iff ..).2 rfl

end Envelope

end Pipework
