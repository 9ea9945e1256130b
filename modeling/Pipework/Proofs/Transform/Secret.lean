import Pipework.Proofs.Random
import Pipework.Proofs.Text.Utf8
import Pipework.Proofs.Transform.Envelope
import Pipework.Proofs.Value.Json
import Pipework.Transform.Aead

set_option autoImplicit false

/-! # What an envelope gives back

An envelope keeps bytes, not a value: a text and a byte string are kept as they are, anything else
as its JSON text (`Carries`). Whoever opens it gets a document if the bytes spell one, and the bytes
otherwise (`Reopens`). So structured values come back, unless they nest too deep for the reader
(`secretDecrypt_secretEncrypt`). Every number of rounds, salt and vector comes from some source
(`Draw.ofSource_surjective`), so what holds for all sources holds for all draws. -/

namespace Pipework.Transform

/-! ## Payloads -/

/-- The bytes that are kept of a value. -/
inductive Carries : Value → Bytes → Prop
  | text (s : String) : Carries (.text s) (Utf8.encode s)
  | bytes (b : Bytes) : Carries (.bytes b) b
  | document {value : Value} {json : Json} (htext : value.kind ≠ .text)
      (hbytes : value.kind ≠ .bytes) (hjson : value.toJson = .ok json) :
      Carries value (Utf8.encode (json.render .compact))

theorem payload_eq_ok_iff {value : Value} {bytes : Bytes} :
    payload value = .ok bytes ↔ Carries value bytes := by
  constructor
  · intro h
    cases value with
    | text s =>
        obtain rfl := Except.ok.inj h
        exact .text s
    | bytes b =>
        obtain rfl := Except.ok.inj h
        exact .bytes b
    | _ =>
        simp only [payload, bind_eq_ok_iff, pure_eq_ok_iff] at h
        obtain ⟨json, hjson, rfl⟩ := h
        exact .document nofun nofun hjson
  · intro h
    cases h with
    | text s => rfl
    | bytes b => rfl
    | document htext hbytes hjson =>
        cases value with
        | text s => exact absurd rfl htext
        | bytes b => exact absurd rfl hbytes
        | _ => simp only [payload, hjson, bind, Except.bind, pure, Except.pure]

/-- What bytes are taken for: the value of a document if they spell one, else themselves. -/
inductive Reopens (bytes : Bytes) : Value → Prop
  | document {text : String} {json : Json} (htext : Utf8.encode text = bytes)
      (hjson : Json.parse text = .ok json) : Reopens bytes (.ofJson json)
  | bytes (h : ∀ text, Utf8.encode text = bytes → ∀ json, Json.parse text ≠ .ok json) :
      Reopens bytes (.bytes bytes)

theorem reopens_iff {bytes : Bytes} {value : Value} :
    Reopens bytes value ↔ ofPayload bytes = value := by
  constructor
  · intro h
    cases h with
    | document htext hjson => simp only [ofPayload, Utf8.decode_eq_ok_iff.2 htext, hjson]
    | bytes h =>
        rw [ofPayload]
        split
        · rfl
        · next text htext =>
            split
            · rfl
            · next json hjson => exact absurd hjson (h text (Utf8.decode_eq_ok_iff.1 htext) json)
  · rintro rfl
    cases htext : Utf8.decode bytes with
    | error count =>
        simp only [ofPayload, htext]
        refine .bytes fun text hencode => ?_
        cases htext.symm.trans (Utf8.decode_eq_ok_iff.2 hencode)
    | ok text =>
        have hencode := Utf8.decode_eq_ok_iff.1 htext
        cases hjson : Json.parse text with
        | ok json =>
            simp only [ofPayload, htext, hjson]
            exact .document hencode hjson
        | error e =>
            simp only [ofPayload, htext, hjson]
            refine .bytes fun other hother json hparse => ?_
            obtain rfl := Utf8.eq_of_encode_eq (hother.trans hencode.symm)
            cases hjson.symm.trans hparse

/-! ## Draws -/

/-- What is drawn for an envelope. -/
structure Draw where
  rounds : Nat
  salt : Bytes
  iv : Gcm.Nonce
  range : Envelope.minRounds ≤ rounds ∧ rounds ≤ Envelope.maxRounds
  saltSize : salt.length = Envelope.saltLength

namespace Draw

/-- The envelope that seals `payload` with what was drawn. -/
def close (draw : Draw) (secret payload : Bytes) : Envelope :=
  Envelope.close secret draw.rounds draw.salt draw.iv payload

/-- What is drawn from a source. -/
def ofSource (source : RandomSource) : Draw where
  rounds := Envelope.minRounds + source.below Envelope.roundsSpread
  salt := (source.drop 8).take Envelope.saltLength
  iv := drawNonce (source.drop (8 + Envelope.saltLength))
  range := by
    have hbelow : source.below Envelope.roundsSpread < Envelope.roundsSpread :=
      source.below_lt (by decide)
    exact ⟨Nat.le_add_right .., by rw [Envelope.maxRounds]; omega⟩
  saltSize := RandomSource.length_take ..

/-- Everything that may be drawn is drawn from some source. -/
theorem ofSource_surjective : Function.Surjective ofSource := by
  rintro ⟨rounds, salt, ⟨iv, hiv⟩, ⟨hleast, hmost⟩, hsalt⟩
  have hbelow : rounds - Envelope.minRounds < Envelope.roundsSpread := by
    have : 0 < Envelope.roundsSpread := by decide
    rw [Envelope.maxRounds] at hmost
    omega
  -- the source begins with the number of rounds, the salt and the vector, in this order
  let number := RandomSource.numberBytes 8 (rounds - Envelope.minRounds)
  have hnumber : number.length = 8 := RandomSource.length_numberBytes ..
  refine ⟨.starting (number ++ (salt ++ iv)), ?_⟩
  have hrounds := RandomSource.below_starting_numberBytes hbelow (by decide) (salt ++ iv)
  have htakeSalt := RandomSource.take_drop_starting number salt iv
  rw [List.append_assoc, hnumber, hsalt] at htakeSalt
  have htakeIv := RandomSource.take_drop_starting (number ++ salt) iv []
  rw [List.append_nil, List.append_assoc, List.length_append, hnumber, hsalt, hiv] at htakeIv
  simp only [ofSource, drawNonce, mk.injEq, Gcm.Nonce.mk.injEq]
  refine ⟨?_, htakeSalt, htakeIv⟩
  rw [hrounds]
  exact Nat.add_sub_cancel' hleast

end Draw

/-! ## Sealing and opening -/

theorem secretEncrypt_eq_ok_iff {source : RandomSource} {value : Value} {args : Arguments}
    {result : Value} :
    secretEncrypt source value args = .ok result ↔
      ∃ secret bytes, Parameter.secret.bytes args = .ok secret ∧ Carries value bytes ∧
        result = ((Draw.ofSource source).close secret bytes).toValue := by
  simp only [secretEncrypt, bind_eq_ok_iff, pure_eq_ok_iff, payload_eq_ok_iff]
  constructor
  · rintro ⟨secret, hsecret, bytes, hbytes, rfl⟩
    exact ⟨secret, bytes, hsecret, hbytes, rfl⟩
  · rintro ⟨secret, bytes, hsecret, hbytes, rfl⟩
    exact ⟨secret, hsecret, bytes, hbytes, rfl⟩

/-- Under the secret it was closed with, an envelope gives the value of its payload. -/
theorem secretDecrypt_close {args : Arguments} {secret : Bytes}
    (hsecret : Parameter.secret.bytes args = .ok secret) (draw : Draw) (bytes : Bytes) :
    secretDecrypt (draw.close secret bytes).toValue args = .ok (ofPayload bytes) := by
  have htag : (draw.close secret bytes).tag.length = Gcm.tagLength := Envelope.length_tag_close ..
  have hopen : (draw.close secret bytes).open? secret = some bytes := Envelope.open?_close ..
  obtain ⟨entries, hentries, hof⟩ := Envelope.exists_entries_of_toValue draw.range htag
  rw [hentries, secretDecrypt]
  refine bind_eq_ok_iff.2 ⟨secret, hsecret, bind_eq_ok_iff.2 ⟨_, hof, ?_⟩⟩
  simp only [hopen]
  rfl

/-- **Envelopes give back what was sealed.** Whatever was drawn, the secret opens an envelope, and
    what comes back is what the bytes that were kept are taken for. For anything but a text or a
    byte string these bytes spell a document, so a value without floating-point numbers comes back,
    with boxes in their map form, if it nests 127 deep at most; if it nests deeper, its JSON text
    comes back as a byte string. -/
theorem secretDecrypt_secretEncrypt (source : RandomSource) (value envelope : Value)
    (sealing opening : Arguments)
    (hsame : Parameter.secret.bytes opening = Parameter.secret.bytes sealing)
    (henvelope : secretEncrypt source value sealing = .ok envelope) :
    (∃ bytes reopened, Carries value bytes ∧ Reopens bytes reopened ∧
      secretDecrypt envelope opening = .ok reopened) ∧
    (value.kind ≠ .text → value.kind ≠ .bytes → ¬value.HasPart Value.IsFloat →
      (value.depth ≤ 127 → secretDecrypt envelope opening = .ok value.unboxed) ∧
      (127 < value.depth → ∃ json, value.toJson = .ok json ∧
        secretDecrypt envelope opening =
          .ok (.bytes (Utf8.encode (json.render .compact))))) := by
  obtain ⟨secret, bytes, hsecret, hcarries, rfl⟩ := secretEncrypt_eq_ok_iff.1 henvelope
  have hopen := secretDecrypt_close (hsame.trans hsecret) (Draw.ofSource source) bytes
  refine ⟨⟨bytes, ofPayload bytes, hcarries, reopens_iff.2 rfl, hopen⟩, ?_⟩
  intro htext hbytes hfloat
  cases hcarries with
  | text s => exact absurd rfl htext
  | bytes b => exact absurd rfl hbytes
  | @document _ json _ _ hjson =>
      have hmirrors := Value.mirrors_of_toJson hjson
      have hread := Json.parse_render (hmirrors.onlyInts hfloat) .compact
      rw [hmirrors.depth_eq] at hread
      constructor
      · intro hdepth
        have hreopens := reopens_iff.1 (.document rfl (hread.1 hdepth))
        rw [hopen, hreopens, hmirrors.ofJson_eq]
      · intro hdepth
        obtain ⟨e, he⟩ := hread.2 hdepth
        refine ⟨json, hjson, ?_⟩
        -- the bytes spell this text and no other, and it is refused
        have hreopens : Reopens (Utf8.encode (json.render .compact)) (.bytes _) :=
          .bytes fun text htext other hother => by
            obtain rfl := Utf8.eq_of_encode_eq htext
            cases he.symm.trans hother
        rw [hopen, reopens_iff.1 hreopens]

/-- A list of a number and a box, sealed under a secret that is given by position and opened under
    the same secret, given by name. -/
theorem secretDecrypt_secretEncrypt_list :
    ∃ (envelope : Value) (box : SealedBox),
      secretEncrypt ⟨fun _ => 7⟩ (.list [.int 7, .sealedBox box]) ⟨[.text "s3cret"], .empty⟩ =
        .ok envelope ∧
      secretDecrypt envelope ⟨[], Dict.ofList [("secret", .bytes (Utf8.encode "s3cret"))]⟩ =
        .ok (.list [.int 7, box.toValue]) := by
  let box : SealedBox := ⟨[1], [], [2, 3], [4]⟩
  let source : RandomSource := ⟨fun _ => 7⟩
  let sealing : Arguments := ⟨[.text "s3cret"], .empty⟩
  let json : Json := .array [.number (.int 7), box.toJson]
  have hcarries : Carries (.list [.int 7, .sealedBox box]) (Utf8.encode (json.render .compact)) :=
    .document (by decide) (by decide) rfl
  have henvelope := secretEncrypt_eq_ok_iff.2
    ⟨Utf8.encode "s3cret", _, (rfl : Parameter.secret.bytes sealing = _), hcarries,
      (rfl : _ = ((Draw.ofSource source).close _ _).toValue)⟩
  have hfloat : ¬Value.HasPart Value.IsFloat (.list [.int 7, .sealedBox box]) := by
    intro hpart
    rcases Value.hasPart_list_iff.1 hpart with h | ⟨item, hitem, h⟩
    · cases h
    · simp only [List.mem_cons, List.not_mem_nil, or_false] at hitem
      rcases hitem with rfl | rfl
      · exact nomatch (Value.hasPart_scalar_iff (by decide) (by decide)).1 h
      · exact nomatch (Value.hasPart_scalar_iff (by decide) (by decide)).1 h
  have hback := (secretDecrypt_secretEncrypt source _ _ sealing
    ⟨[], Dict.ofList [("secret", .bytes (Utf8.encode "s3cret"))]⟩ rfl henvelope).2
    (by decide) (by decide) hfloat
  exact ⟨_, box, henvelope, hback.1 (by decide)⟩

end Pipework.Transform
