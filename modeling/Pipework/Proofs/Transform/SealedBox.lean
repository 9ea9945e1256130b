import Pipework.Proofs.Codec.Base64
import Pipework.Proofs.Data.Dict
import Pipework.Proofs.Transform.Notation

set_option autoImplicit false

/-! # Sealed boxes read back

`SealedBox.Gives` says which bytes the entry of a field gives and `SealedBox.Refuses` why another
entry gives none; every entry does one or the other (`SealedBox.gives_or_refuses`). So a map is
read as a box exactly if its four entries give the fields of the box, and the first entry that
gives nothing decides the error. On the way through JSON text a box is its map form, so it arrives
as the same box (`SealedBox.ofValue_inverts`). -/

namespace Pipework

namespace SealedBox

/-- The fields, in the order in which they are read. -/
def readingOrder : List BoxField := [.nonce, .associated, .ciphertext, .tag]

/-- The bytes of a field. -/
def part (box : SealedBox) : BoxField → Bytes
  | .nonce => box.nonce
  | .associated => box.associated
  | .ciphertext => box.ciphertext
  | .tag => box.tag

/-! ## Entries -/

/-- The entry of a field gives these bytes: it holds them, or their base64 text. Only associated
    data may be left out or null. -/
inductive Gives (entries : Dict Value) : BoxField → Bytes → Prop
  | bytes {field : BoxField} {bytes : Bytes} (h : entries.get? field.key = some (.bytes bytes)) :
      Gives entries field bytes
  | text {field : BoxField} {bytes : Bytes} {s : String}
      (h : entries.get? field.key = some (.text s)) (hs : Base64.Spells bytes s.toList) :
      Gives entries field bytes
  | absent (h : entries.get? BoxField.associated.key = none) : Gives entries .associated []
  | null (h : entries.get? BoxField.associated.key = some .null) : Gives entries .associated []

/-- Why the entry of a field gives no bytes. -/
inductive Refuses (entries : Dict Value) : BoxField → BoxError → Prop
  | missing {field : BoxField} (hfield : field ≠ .associated) (h : entries.get? field.key = none) :
      Refuses entries field (.missing field)
  | notBase64 {field : BoxField} {s : String} (h : entries.get? field.key = some (.text s))
      (hs : ∀ bytes, ¬Base64.Spells bytes s.toList) : Refuses entries field (.notBase64 field)
  | wrongKind {field : BoxField} {value : Value} (h : entries.get? field.key = some value)
      (htext : value.kind ≠ .text) (hbytes : value.kind ≠ .bytes)
      (hnull : field = .associated → value.kind ≠ .null) :
      Refuses entries field (.wrongKind field value.kind)

/-- A refusal names the field. -/
theorem Refuses.exists_reason {entries : Dict Value} {field : BoxField} {error : BoxError}
    (h : Refuses entries field error) :
    ∃ front back, error.reason = front ++ s!"'{field.key}'" ++ back := by
  cases h with
  | missing => exact ⟨"missing field ", "", by cases field <;> rfl⟩
  | notBase64 => exact ⟨"field ", " is not valid base64", by cases field <;> rfl⟩
  | @wrongKind value =>
      refine ⟨"field ", " must be text or bytes, found " ++ value.kind.name, ?_⟩
      cases field <;> cases value.kind <;> rfl

/-- The bytes that the entry of a field gives. -/
def readField (entries : Dict Value) : BoxField → Except Fault Bytes
  | .associated => associatedField entries
  | other => field entries other

theorem readField_of_gives {entries : Dict Value} {name : BoxField} {bytes : Bytes}
    (h : Gives entries name bytes) : readField entries name = .ok bytes := by
  cases h with
  | bytes h => cases name <;> simp [readField, associatedField, field, h]
  | text h hs =>
      have hdecode := Base64.decode_eq_ok_iff.2 (Base64.spells_iff.1 hs)
      cases name <;> simp [readField, associatedField, field, h, hdecode]
  | absent h => simp [readField, associatedField, h]
  | null h => simp [readField, associatedField, h]

theorem readField_of_refuses {entries : Dict Value} {name : BoxField} {error : BoxError}
    (h : Refuses entries name error) : readField entries name = .error (.box error) := by
  cases h with
  | missing hfield h => cases name <;> simp_all [readField, field]
  | @notBase64 s h hs =>
      have hdecode : ∀ bytes, Base64.decode s.toList ≠ .ok bytes := fun bytes hbytes =>
        hs bytes (Base64.spells_iff.2 (Base64.decode_eq_ok_iff.1 hbytes))
      cases hread : Base64.decode s.toList with
      | ok bytes => exact absurd hread (hdecode bytes)
      | error e => cases name <;> simp [readField, associatedField, field, h, hread]
  | @wrongKind value h htext hbytes hnull =>
      cases value <;> cases name <;> simp_all [readField, associatedField, field, Value.kind]

/-- Every entry gives bytes or is refused. -/
theorem gives_or_refuses (entries : Dict Value) (name : BoxField) :
    (∃ bytes, Gives entries name bytes) ∨ ∃ error, Refuses entries name error := by
  cases hentry : entries.get? name.key with
  | none =>
      by_cases hname : name = .associated
      · subst hname
        exact Or.inl ⟨[], .absent hentry⟩
      · exact Or.inr ⟨_, .missing hname hentry⟩
  | some value =>
      by_cases htext : value.kind = .text
      · cases value <;> cases htext
        next s =>
          by_cases hs : ∃ bytes, Base64.Spells bytes s.toList
          · obtain ⟨bytes, hs⟩ := hs
            exact Or.inl ⟨bytes, .text hentry hs⟩
          · exact Or.inr ⟨_, .notBase64 hentry (not_exists.1 hs)⟩
      · by_cases hbytes : value.kind = .bytes
        · cases value <;> cases hbytes
          exact Or.inl ⟨_, .bytes hentry⟩
        · by_cases hnull : name = .associated ∧ value.kind = .null
          · obtain ⟨rfl, hnull⟩ := hnull
            cases value <;> cases hnull
            exact Or.inl ⟨[], .null hentry⟩
          · exact Or.inr ⟨_, .wrongKind hentry htext hbytes fun hname hkind => hnull ⟨hname, hkind⟩⟩

theorem readField_eq_ok_iff {entries : Dict Value} {name : BoxField} {bytes : Bytes} :
    readField entries name = .ok bytes ↔ Gives entries name bytes := by
  constructor
  · intro h
    rcases gives_or_refuses entries name with ⟨found, hfound⟩ | ⟨error, herror⟩
    · obtain rfl := Except.ok.inj ((readField_of_gives hfound).symm.trans h)
      exact hfound
    · cases (readField_of_refuses herror).symm.trans h
  · exact readField_of_gives

theorem readField_eq_error_iff {entries : Dict Value} {name : BoxField} {fault : Fault} :
    readField entries name = .error fault ↔
      ∃ error, Refuses entries name error ∧ fault = .box error := by
  constructor
  · intro h
    rcases gives_or_refuses entries name with ⟨found, hfound⟩ | ⟨error, herror⟩
    · cases (readField_of_gives hfound).symm.trans h
    · exact ⟨error, herror, Except.error.inj (h.symm.trans (readField_of_refuses herror))⟩
  · rintro ⟨error, herror, rfl⟩
    exact readField_of_refuses herror

/-! ## Maps -/

theorem ofValue_map (entries : Dict Value) :
    ofValue (.map entries) = (do
      let nonce ← readField entries .nonce
      let associated ← readField entries .associated
      let ciphertext ← readField entries .ciphertext
      let tag ← readField entries .tag
      return { nonce, associated, ciphertext, tag }) :=
  rfl

theorem ofValue_map_eq_ok_iff {entries : Dict Value} {box : SealedBox} :
    ofValue (.map entries) = .ok box ↔ ∀ field, Gives entries field (box.part field) := by
  simp only [ofValue_map, bind_eq_ok_iff, pure_eq_ok_iff, readField_eq_ok_iff]
  constructor
  · rintro ⟨nonce, hnonce, associated, hassociated, ciphertext, hciphertext, tag, htag, rfl⟩ field
    cases field <;> assumption
  · intro h
    exact ⟨_, h .nonce, _, h .associated, _, h .ciphertext, _, h .tag, rfl⟩

theorem ofValue_map_eq_error_iff {entries : Dict Value} {fault : Fault} :
    ofValue (.map entries) = .error fault ↔
      ∃ before field after error, readingOrder = before ++ field :: after ∧
        (∀ earlier ∈ before, ∃ bytes, Gives entries earlier bytes) ∧
        Refuses entries field error ∧ fault = .box error := by
  have hmapM : ofValue (.map entries) = .error fault ↔
      readingOrder.mapM (readField entries) = .error fault := by
    simp only [ofValue_map, readingOrder, List.mapM_cons, List.mapM_nil, bind_eq_error_iff]
    simp [pure, Except.pure]
  rw [hmapM, mapM_eq_error_iff]
  simp only [readField_eq_ok_iff, readField_eq_error_iff]
  constructor
  · rintro ⟨before, field, after, horder, hbefore, error, herror, rfl⟩
    exact ⟨before, field, after, error, horder, hbefore, herror, rfl⟩
  · rintro ⟨before, field, after, error, horder, hbefore, herror, rfl⟩
    exact ⟨before, field, after, horder, hbefore, error, herror, rfl⟩

/-- Only the entries of the fields are looked at. -/
theorem ofValue_map_congr {entries others : Dict Value}
    (h : ∀ field : BoxField, others.get? field.key = entries.get? field.key) :
    ofValue (.map others) = ofValue (.map entries) := by
  simp only [ofValue, associatedField, SealedBox.field, h]

/-! ## Map form and text -/

theorem get?_fields (box : SealedBox) (field : BoxField) :
    (Dict.ofList (box.fields.map fun (key, text) => (key, Value.text text))).get? field.key =
      some (.text (String.ofList (Base64.encode (box.part field)))) := by
  show ((((Dict.empty.insert _ _).insert _ _).insert _ _).insert _ _).get? _ = _
  cases field <;> simp [Dict.get?_insert, BoxField.key, part]

theorem ofValue_toValue (box : SealedBox) : ofValue box.toValue = .ok box := by
  refine ofValue_map_eq_ok_iff.2 fun field => .text (box.get?_fields field) ?_
  rw [String.toList_ofList]
  exact Base64.spells_encode (box.part field)

/-- A box is an object of texts, which any layout writes and which is not too deep to be read. -/
theorem exists_text_of_indentOk (box : SealedBox) {args : Arguments}
    (h : Transform.IndentOk args) :
    ∃ text, Transform.valueToJson (.sealedBox box) args = .ok (.text text) ∧
      Transform.jsonToValue (.text text) = .ok box.toValue := by
  obtain ⟨layout, hlayout⟩ := Transform.exists_layout h
  have hdepth : box.toJson.depth ≤ Json.maxDepth := by
    rw [Value.depth_boxToJson]
    decide
  have hread := (Json.parse_render (Value.onlyInts_boxToJson box) layout).1 hdepth
  refine ⟨_, hlayout (.sealedBox box) box.toJson rfl, ?_⟩
  rw [Transform.jsonToValue_text, hread]
  exact congrArg Except.ok (Value.ofJson_boxToJson box)

/-- **A map is read as a box exactly if it holds the fields of the box.** A box comes back from its
    map form, from its document and from JSON text in any layout. A map is read as it if each field
    is there as a byte string or in base64, where empty associated data may also be left out or
    null; other entries make no difference. Any other map is malformed, and the error is about the
    first field in order that gives no bytes. -/
theorem ofValue_inverts (box : SealedBox) (entries : Dict Value) :
    ofValue box.toValue = .ok box ∧
    (∃ json, (Value.sealedBox box).toJson = .ok json ∧ ofValue (Value.ofJson json) = .ok box) ∧
    (∀ args, Transform.IndentOk args → ∃ text value,
      Transform.valueToJson (.sealedBox box) args = .ok (.text text) ∧
      Transform.jsonToValue (.text text) = .ok value ∧ ofValue value = .ok box) ∧
    (ofValue (.map entries) = .ok box ↔ ∀ field, Gives entries field (box.part field)) ∧
    (∀ others : Dict Value,
      (∀ field : BoxField, others.get? field.key = entries.get? field.key) →
        ofValue (.map others) = ofValue (.map entries)) ∧
    ((∀ found, ofValue (.map entries) ≠ .ok found) →
      ∃ before field after error front back, readingOrder = before ++ field :: after ∧
        (∀ earlier ∈ before, ∃ bytes, Gives entries earlier bytes) ∧
        Refuses entries field error ∧ ofValue (.map entries) = .error (.box error) ∧
        (Fault.box error).toError =
          .format "sealed box" (front ++ s!"'{field.key}'" ++ back)) := by
  refine ⟨ofValue_toValue box, ⟨_, rfl, ?_⟩, ?_, ofValue_map_eq_ok_iff,
    fun others h => ofValue_map_congr h, ?_⟩
  · rw [Value.ofJson_boxToJson, ofValue_toValue]
  · intro args hargs
    obtain ⟨text, htext, hback⟩ := box.exists_text_of_indentOk hargs
    exact ⟨text, _, htext, hback, ofValue_toValue box⟩
  · intro hnone
    cases hread : ofValue (.map entries) with
    | ok found => exact absurd hread (hnone found)
    | error fault =>
        obtain ⟨before, field, after, error, horder, hbefore, herror, rfl⟩ :=
          ofValue_map_eq_error_iff.1 hread
        obtain ⟨front, back, hreason⟩ := herror.exists_reason
        refine ⟨before, field, after, error, front, back, horder, hbefore, herror, rfl, ?_⟩
        rw [Fault.toError, hreason]

end SealedBox

end Pipework
