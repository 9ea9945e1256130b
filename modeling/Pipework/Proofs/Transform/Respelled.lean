import Pipework.Proofs.Transform.Secret

set_option autoImplicit false

/-! # Envelopes spelled differently

Of the parameters of an envelope only the number of rounds can be spelled in more than one way: a
plus sign and zeros may stand before it (`Envelope.Spells`). All these spellings open alike, and
none but the one without anything before the number is written
(`Transform.secretDecrypt_opens_all_spellings`). -/

namespace Pipework

/-! ## Spellings -/

namespace Envelope

/-- The parameters are those of the envelope, with a plus sign and zeros before them if need be. -/
def Spells (envelope : Envelope) (parameters : String) : Prop :=
  ∃ padding, Text.IsPadding padding ∧ parameters.toList = padding ++ envelope.parameterChars

theorem ofEntries_eq_ok_iff_spells {entries : Dict Value} {envelope : Envelope} :
    ofEntries entries = .ok envelope ↔
      ∃ parameters data,
        entries.get? EnvelopePart.parameters.name = some (.text parameters) ∧
        entries.get? EnvelopePart.data.name = some (.text data) ∧ envelope.Spells parameters ∧
        data.toList = Base64.encode envelope.data ∧
        (minRounds ≤ envelope.rounds ∧ envelope.rounds ≤ maxRounds) ∧
        envelope.tag.length = Gcm.tagLength := by
  rw [ofEntries_eq_ok_iff]
  constructor
  · rintro ⟨rounds, parameters, data, hparameters, hdata, hpieces, hbytes, hnat, hrange, htag⟩
    obtain ⟨-, padding, hpadding, rfl⟩ := Text.nat32?_eq_some_iff_padded.1 hnat
    rw [intercalate_parameterPieces] at hpieces
    exact ⟨parameters, data, hparameters, hdata, ⟨padding, hpadding, hpieces⟩, hbytes, hrange, htag⟩
  · rintro ⟨parameters, data, hparameters, hdata, ⟨padding, hpadding, hspelled⟩, hbytes, hrange,
      htag⟩
    have hfits : envelope.rounds < 0x100000000 := Nat.lt_of_le_of_lt hrange.2 (by decide)
    refine ⟨padding ++ Decimal.digitChars envelope.rounds, parameters, data, hparameters, hdata, ?_,
      hbytes, Text.nat32?_eq_some_iff_padded.2 ⟨hfits, padding, hpadding, rfl⟩, hrange, htag⟩
    rw [intercalate_parameterPieces, hspelled]

/-- Only the two texts of a map are looked at. -/
theorem ofEntries_congr {entries others : Dict Value}
    (hparameters : others.get? EnvelopePart.parameters.name =
      entries.get? EnvelopePart.parameters.name)
    (hdata : others.get? EnvelopePart.data.name = entries.get? EnvelopePart.data.name) :
    ofEntries others = ofEntries entries := by
  simp only [ofEntries, textField, hparameters, hdata]

/-- Other parameters give the same envelope if they spell it. -/
theorem ofEntries_insert_eq_ok_iff {entries : Dict Value} {envelope : Envelope}
    (h : ofEntries entries = .ok envelope) {other : String} :
    ofEntries (entries.insert EnvelopePart.parameters.name (.text other)) = .ok envelope ↔
      envelope.Spells other := by
  obtain ⟨_, data, _, hdata, _, hbytes, hrange, htag⟩ := ofEntries_eq_ok_iff_spells.1 h
  have hne : EnvelopePart.parameters.name ≠ EnvelopePart.data.name := by decide
  rw [ofEntries_eq_ok_iff_spells]
  simp only [Dict.get?_insert, if_true, if_neg hne]
  constructor
  · rintro ⟨parameters, _, hparameters, _, hspells, _⟩
    obtain rfl := Value.text.inj (Option.some.inj hparameters)
    exact hspells
  · intro hspells
    exact ⟨other, data, rfl, hdata, hspells, hbytes, hrange, htag⟩

theorem eq_close_of_open? {secret bytes : Bytes} {envelope : Envelope}
    (h : envelope.open? secret = some bytes) :
    envelope = close secret envelope.rounds envelope.salt envelope.iv bytes := by
  have hsealed := (Gcm.opened_eq_some_iff ..).1 h
  simp only [close, hsealed]

end Envelope

/-! ## Opening -/

namespace Transform

theorem secretDecrypt_eq_ok_iff {entries : Dict Value} {args : Arguments} {result : Value} :
    secretDecrypt (.map entries) args = .ok result ↔
      ∃ secret envelope bytes, Parameter.secret.bytes args = .ok secret ∧
        Envelope.ofEntries entries = .ok envelope ∧ envelope.open? secret = some bytes ∧
        result = ofPayload bytes := by
  simp only [secretDecrypt, bind_eq_ok_iff]
  constructor
  · rintro ⟨secret, hsecret, envelope, henvelope, h⟩
    split at h
    · next bytes hopen =>
        exact ⟨secret, envelope, bytes, hsecret, henvelope, hopen, (Except.ok.inj h).symm⟩
    · cases h
  · rintro ⟨secret, envelope, bytes, hsecret, henvelope, hopen, rfl⟩
    refine ⟨secret, hsecret, envelope, henvelope, ?_⟩
    simp only [hopen]
    rfl

theorem secretDecrypt_insert_of_spells {entries : Dict Value} {args : Arguments} {result : Value}
    {envelope : Envelope} (h : secretDecrypt (.map entries) args = .ok result)
    (henvelope : Envelope.ofEntries entries = .ok envelope) {other : String}
    (hother : envelope.Spells other) :
    secretDecrypt (.map (entries.insert EnvelopePart.parameters.name (.text other))) args =
      .ok result := by
  obtain ⟨secret, _, bytes, hsecret, hsame, hopen, hresult⟩ := secretDecrypt_eq_ok_iff.1 h
  obtain rfl := Except.ok.inj (henvelope.symm.trans hsame)
  exact secretDecrypt_eq_ok_iff.2 ⟨secret, envelope, bytes, hsecret,
    (Envelope.ofEntries_insert_eq_ok_iff henvelope).2 hother, hopen, hresult⟩

/-- Under the secret it was closed with, the map form of an envelope is one that opens. -/
theorem exists_entries_of_close {args : Arguments} {secret : Bytes}
    (hsecret : Parameter.secret.bytes args = .ok secret) (draw : Draw) (bytes : Bytes) :
    ∃ entries, (draw.close secret bytes).toValue = .map entries ∧
      Envelope.ofEntries entries = .ok (draw.close secret bytes) ∧
      secretDecrypt (.map entries) args = .ok (ofPayload bytes) := by
  have htag : (draw.close secret bytes).tag.length = Gcm.tagLength := Envelope.length_tag_close ..
  obtain ⟨entries, hentries, hof⟩ := Envelope.exists_entries_of_toValue draw.range htag
  exact ⟨entries, hentries, hof, hentries ▸ secretDecrypt_close hsecret draw bytes⟩

/-- Only the spelling without anything before the number is written, and only with a salt of the
    usual length. -/
theorem exists_written_iff {entries : Dict Value} {args : Arguments} {result : Value}
    {envelope : Envelope} {parameters : String}
    (h : secretDecrypt (.map entries) args = .ok result)
    (henvelope : Envelope.ofEntries entries = .ok envelope)
    (hparameters : entries.get? EnvelopePart.parameters.name = some (.text parameters)) :
    (∃ source value written, secretEncrypt source value args = .ok (.map written) ∧
      written.get? EnvelopePart.parameters.name = entries.get? EnvelopePart.parameters.name ∧
      written.get? EnvelopePart.data.name = entries.get? EnvelopePart.data.name) ↔
      parameters.toList = envelope.parameterChars ∧ envelope.salt.length = Envelope.saltLength := by
  constructor
  · rintro ⟨source, value, written, hwritten, hsameParameters, hsameData⟩
    obtain ⟨secret, bytes, hsecret, -, hclosed⟩ := secretEncrypt_eq_ok_iff.1 hwritten
    let draw := Draw.ofSource source
    -- what was written reads as the envelope that was closed, and so do the entries
    obtain ⟨read, hread, hofRead, -⟩ := exists_entries_of_close hsecret draw bytes
    obtain rfl := Value.map.inj (hclosed.trans hread)
    rw [Envelope.ofEntries_congr hsameParameters hsameData, henvelope] at hofRead
    obtain rfl := Except.ok.inj hofRead
    obtain ⟨same, hsame, htext, -⟩ := (draw.close secret bytes).exists_toValue_eq
    obtain rfl := Value.map.inj (hclosed.trans hsame)
    rw [hsameParameters, hparameters] at htext
    obtain rfl := Value.text.inj (Option.some.inj htext)
    exact ⟨String.toList_ofList, draw.saltSize⟩
  · rintro ⟨hspelled, hsalt⟩
    obtain ⟨secret, _, bytes, hsecret, hsame, hopen, -⟩ := secretDecrypt_eq_ok_iff.1 h
    obtain rfl := Except.ok.inj (henvelope.symm.trans hsame)
    obtain ⟨_, data, -, hdata, -, hbytes, hrange, -⟩ :=
      Envelope.ofEntries_eq_ok_iff_spells.1 henvelope
    obtain ⟨source, hsource⟩ :=
      Draw.ofSource_surjective ⟨envelope.rounds, envelope.salt, envelope.iv, hrange, hsalt⟩
    have hclosed : (Draw.ofSource source).close secret bytes = envelope := by
      rw [hsource]
      exact (Envelope.eq_close_of_open? hopen).symm
    obtain ⟨written, hwritten, hwrittenParameters, hwrittenData⟩ := envelope.exists_toValue_eq
    refine ⟨source, .bytes bytes, written, ?_, ?_, ?_⟩
    · exact secretEncrypt_eq_ok_iff.2
        ⟨secret, bytes, hsecret, .bytes bytes, by rw [hclosed, hwritten]⟩
    · rw [hwrittenParameters, hparameters, ← hspelled, String.ofList_toList]
    · rw [hwrittenData, hdata, ← hbytes, String.ofList_toList]

/-- **The spellings of an envelope that open.** The parameters of an envelope that opens may be
    replaced by those that spell it, and by no others if they are to give the same envelope; it
    opens to the same value then. Of all these, and of all salts, only one spelling and salts of one
    length are ever written. -/
theorem secretDecrypt_opens_all_spellings {entries : Dict Value} {args : Arguments}
    {result : Value} (h : secretDecrypt (.map entries) args = .ok result) :
    ∃ envelope parameters, Envelope.ofEntries entries = .ok envelope ∧
      entries.get? EnvelopePart.parameters.name = some (.text parameters) ∧
      envelope.Spells parameters ∧
      (∀ other, Envelope.ofEntries
          (entries.insert EnvelopePart.parameters.name (.text other)) = .ok envelope ↔
        envelope.Spells other) ∧
      (∀ other, envelope.Spells other →
        secretDecrypt (.map (entries.insert EnvelopePart.parameters.name (.text other))) args =
          .ok result) ∧
      ((∃ source value written, secretEncrypt source value args = .ok (.map written) ∧
        written.get? EnvelopePart.parameters.name = entries.get? EnvelopePart.parameters.name ∧
        written.get? EnvelopePart.data.name = entries.get? EnvelopePart.data.name) ↔
          parameters.toList = envelope.parameterChars ∧
            envelope.salt.length = Envelope.saltLength) := by
  obtain ⟨secret, envelope, bytes, -, henvelope, -, -⟩ := secretDecrypt_eq_ok_iff.1 h
  obtain ⟨parameters, _, hparameters, _, hspells, -⟩ :=
    Envelope.ofEntries_eq_ok_iff_spells.1 henvelope
  exact ⟨envelope, parameters, henvelope, hparameters, hspells,
    fun _ => Envelope.ofEntries_insert_eq_ok_iff henvelope,
    fun _ => secretDecrypt_insert_of_spells h henvelope,
    exists_written_iff h henvelope hparameters⟩

/-- No bytes, sealed in 100 rounds. -/
theorem secretDecrypt_opens_spellings_of_empty :
    let args : Arguments := ⟨[.text "s3cret"], .empty⟩
    let draw : Draw := ⟨100, List.replicate 12 0, ⟨List.replicate 12 0, rfl⟩, by decide, rfl⟩
    let envelope := draw.close (Utf8.encode "s3cret") []
    ∃ entries, envelope.toValue = .map entries ∧
      ∀ other, envelope.Spells other →
        secretDecrypt (.map (Dict.insert entries EnvelopePart.parameters.name (.text other))) args =
          .ok (ofPayload []) := by
  intro args draw envelope
  have hsecret : Parameter.secret.bytes args = .ok (Utf8.encode "s3cret") := rfl
  obtain ⟨entries, hentries, hof, hopen⟩ := exists_entries_of_close hsecret draw []
  obtain ⟨same, _, hsame, -, -, -, hother, -⟩ := secretDecrypt_opens_all_spellings hopen
  obtain rfl := Except.ok.inj (hof.symm.trans hsame)
  exact ⟨entries, hentries, hother⟩

/-- One zero more before the number of rounds, and the envelope opens as before. -/
theorem secretDecrypt_opens_unwritten_spelling :
    let args : Arguments := ⟨[.text "s3cret"], .empty⟩
    let draw : Draw := ⟨100, List.replicate 12 0, ⟨List.replicate 12 0, rfl⟩, by decide, rfl⟩
    let envelope := draw.close (Utf8.encode "s3cret") []
    ∃ entries, envelope.toValue = .map entries ∧
      secretDecrypt (.map entries) args = .ok (ofPayload []) ∧
      secretDecrypt (.map (Dict.insert entries EnvelopePart.parameters.name
        (.text (String.ofList ('0' :: envelope.parameterChars))))) args = .ok (ofPayload []) := by
  intro args draw envelope
  have hsecret : Parameter.secret.bytes args = .ok (Utf8.encode "s3cret") := rfl
  obtain ⟨entries, hentries, hof, hopen⟩ := exists_entries_of_close hsecret draw []
  have hspells : envelope.Spells (String.ofList ('0' :: envelope.parameterChars)) :=
    ⟨['0'], ⟨1, Or.inl rfl⟩, String.toList_ofList⟩
  exact ⟨entries, hentries, hopen, secretDecrypt_insert_of_spells hopen hof hspells⟩

end Transform

end Pipework
