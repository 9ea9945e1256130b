import Pipework.Proofs.Arguments
import Pipework.Proofs.Transform.Secret
import Pipework.Transform.Builtin

set_option autoImplicit false

/-! # What draws decide

Random bytes end up in salts, nonces, round counts and what is computed from them, and nowhere
else. Two applications of a transform that differ in their source alone fail alike or succeed alike
(`Alike`), and their outputs are the same but for these places, where they still have the same
lengths (`UpToDraws`). Where the salt or the nonce is bound, nothing is drawn
(`Builtin.apply_alike`). -/

namespace Pipework

/-! ## Results that are alike -/

/-- Two results are the same fault, or both are outputs that are related. -/
inductive Alike {α β : Type} (R : α → β → Prop) : Except Fault α → Except Fault β → Prop
  | error (fault : Fault) : Alike R (.error fault) (.error fault)
  | ok {a : α} {b : β} (h : R a b) : Alike R (.ok a) (.ok b)

namespace Alike

variable {α β γ δ : Type} {R : α → β → Prop} {S : γ → δ → Prop}

theorem bind {first : Except Fault α} {second : Except Fault β} {f : α → Except Fault γ}
    {g : β → Except Fault δ} (h : Alike R first second)
    (hnext : ∀ a b, R a b → Alike S (f a) (g b)) : Alike S (first >>= f) (second >>= g) := by
  cases h with
  | error fault => exact .error fault
  | ok h => exact hnext _ _ h

/-- A step that draws nothing comes out the same. -/
theorem same_bind {result : Except Fault α} {f : α → Except Fault γ} {g : α → Except Fault δ}
    (hnext : ∀ a, result = .ok a → Alike S (f a) (g a)) :
    Alike S (result >>= f) (result >>= g) := by
  cases result with
  | error fault => exact .error fault
  | ok a => exact hnext a rfl

/-- A condition that does not look at draws fails on both sides or on neither. -/
theorem dite {p : Prop} [Decidable p] {fault : Fault} {f : p → Except Fault α}
    {g : p → Except Fault β} (h : ∀ hp, Alike R (f hp) (g hp)) :
    Alike R (if hp : p then f hp else .error fault) (if hp : p then g hp else .error fault) := by
  by_cases hp : p
  · rw [dif_pos hp, dif_pos hp]
    exact h hp
  · rw [dif_neg hp, dif_neg hp]
    exact .error fault

theorem of_eq {R : α → α → Prop} (hrefl : ∀ a, R a a) {first second : Except Fault α}
    (h : first = second) : Alike R first second := by
  subst h
  cases first with
  | error fault => exact .error fault
  | ok a => exact .ok (hrefl a)

theorem eq_error_iff {first : Except Fault α} {second : Except Fault β} (h : Alike R first second)
    {fault : Fault} : first = .error fault ↔ second = .error fault := by
  cases h with
  | error other => simp
  | ok h => simp

theorem eq {R : α → α → Prop} (heq : ∀ a b, R a b → a = b) {first second : Except Fault α}
    (h : Alike R first second) : first = second := by
  cases h with
  | error fault => rfl
  | ok h => rw [heq _ _ h]

end Alike

namespace Transform

/-! ## Outputs up to draws -/

/-- The parameters of an envelope: a number of rounds from 100 to 1099 in decimal, and behind it
    three parts in base64 of 16, 16 and 24 characters. -/
inductive IsParameterText : String → Prop
  | mk {rounds : Nat} {salt iv tag : Bytes} (hleast : 100 ≤ rounds) (hmost : rounds ≤ 1099)
      (hsalt : (Base64.encode salt).length = 16) (hiv : (Base64.encode iv).length = 16)
      (htag : (Base64.encode tag).length = 24) :
      IsParameterText (String.ofList (Decimal.digitChars rounds ++ '$' :: Base64.encode salt ++
        '$' :: Base64.encode iv ++ '$' :: Base64.encode tag))

/-- Two outputs of a transform under the same arguments that draws may tell apart. -/
inductive UpToDraws (args : Arguments) : Builtin → Value → Value → Prop
  | same (builtin : Builtin) (output : Value) : UpToDraws args builtin output output
  | key {first second : Bytes} (hbound : Parameter.salt.bound? args = none)
      (hlength : first.length = second.length) :
      UpToDraws args .deriveKey (.bytes first) (.bytes second)
  | record {firstKey secondKey firstSalt secondSalt : Bytes} (iterations : Int64)
      (hbound : Parameter.salt.bound? args = none) (hkey : firstKey.length = secondKey.length)
      (hsalt : firstSalt.length = secondSalt.length) :
      UpToDraws args .deriveKeyRecord
        (.map (Dict.ofList [("key", .bytes firstKey), ("salt", .bytes firstSalt),
          ("iterations", .int iterations)]))
        (.map (Dict.ofList [("key", .bytes secondKey), ("salt", .bytes secondSalt),
          ("iterations", .int iterations)]))
  | box {first second : SealedBox} (hbound : Parameter.nonce.bound? args = none)
      (hassociated : first.associated = second.associated)
      (hnonce : first.nonce.length = second.nonce.length)
      (hciphertext : first.ciphertext.length = second.ciphertext.length)
      (htag : first.tag.length = second.tag.length) :
      UpToDraws args .aeadEncrypt (.sealedBox first) (.sealedBox second)
  | envelope {first second firstData secondData : String} (hfirst : IsParameterText first)
      (hsecond : IsParameterText second) (hdata : firstData.length = secondData.length) :
      UpToDraws args .secretEncrypt
        (.map (Dict.ofList [("ep", .text first), ("data", .text firstData)]))
        (.map (Dict.ofList [("ep", .text second), ("data", .text secondData)]))

/-! ## Derived keys -/

/-- Two derivations that differ in their salts at most, and not even there if one is bound. -/
structure SaltedAlike (args : Arguments) (first second : Derivation) : Prop where
  password : first.password = second.password
  length : first.length = second.length
  iterations : first.iterations = second.iterations
  saltLength : first.salt.length = second.salt.length
  salt : Parameter.salt.bound? args ≠ none → first.salt = second.salt

theorem derivation_alike (first second : RandomSource) (value : Value) (args : Arguments) :
    Alike (SaltedAlike args) (derivation first value args) (derivation second value args) := by
  unfold derivation
  refine .same_bind fun password _ => .same_bind fun length _ => .same_bind fun iterations _ => ?_
  refine .dite fun hlength => .dite fun hiterations => .same_bind fun salt hsalt => .ok ?_
  refine ⟨rfl, rfl, rfl, ?_, ?_⟩
  · cases salt with
    | none => exact (first.length_take _).trans (second.length_take _).symm
    | some bytes => rfl
  · intro hbound
    cases salt with
    | none => exact absurd (Parameter.bytes?_eq_ok_none_iff.1 hsalt) hbound
    | some bytes => rfl

theorem SaltedAlike.key_eq {args : Arguments} {first second : Derivation}
    (h : SaltedAlike args first second) (hbound : Parameter.salt.bound? args ≠ none) :
    first.key = second.key := by
  rw [Derivation.key, Derivation.key, h.password, h.salt hbound, h.iterations, h.length]

theorem SaltedAlike.length_key {args : Arguments} {first second : Derivation}
    (h : SaltedAlike args first second) : first.key.length = second.key.length := by
  rw [Derivation.key, Derivation.key, Pbkdf2.length_derive, Pbkdf2.length_derive, h.length]

theorem deriveKey_alike (first second : RandomSource) (value : Value) (args : Arguments) :
    Alike (UpToDraws args .deriveKey) (deriveKey first value args)
      (deriveKey second value args) := by
  refine (derivation_alike first second value args).bind fun a b h => .ok ?_
  by_cases hbound : Parameter.salt.bound? args = none
  · exact .key hbound h.length_key
  · rw [h.key_eq hbound]
    exact .same _ _

theorem deriveKeyRecord_alike (first second : RandomSource) (value : Value) (args : Arguments) :
    Alike (UpToDraws args .deriveKeyRecord) (deriveKeyRecord first value args)
      (deriveKeyRecord second value args) := by
  refine (derivation_alike first second value args).bind fun a b h => .ok ?_
  by_cases hbound : Parameter.salt.bound? args = none
  · rw [h.iterations]
    exact .record _ hbound h.length_key h.saltLength
  · rw [h.key_eq hbound, h.salt hbound, h.iterations]
    exact .same _ _

/-! ## Sealed boxes -/

/-- A nonce that is bound is the same for all sources. -/
theorem boundNonce_alike (first second : RandomSource) (args : Arguments) :
    Alike (fun a b : Gcm.Nonce => Parameter.nonce.bound? args ≠ none → a = b)
      (boundNonce first args) (boundNonce second args) := by
  refine .same_bind fun nonce hnonce => ?_
  cases nonce with
  | none => exact .ok fun hbound => absurd (Parameter.bytes?_eq_ok_none_iff.1 hnonce) hbound
  | some bytes => exact .dite fun hlength => .ok fun _ => rfl

theorem aeadEncrypt_alike (first second : RandomSource) (value : Value) (args : Arguments) :
    Alike (UpToDraws args .aeadEncrypt) (aeadEncrypt first value args)
      (aeadEncrypt second value args) := by
  refine .same_bind fun plaintext _ => .same_bind fun key _ => .same_bind fun associated _ => ?_
  refine (boundNonce_alike first second args).bind fun a b h => .ok ?_
  by_cases hbound : Parameter.nonce.bound? args = none
  · obtain ⟨hfirst, hfirstTag⟩ := Gcm.length_of_sealed_eq
      (rfl : Gcm.sealed key a (associated.getD []) plaintext = _)
    obtain ⟨hsecond, hsecondTag⟩ := Gcm.length_of_sealed_eq
      (rfl : Gcm.sealed key b (associated.getD []) plaintext = _)
    exact .box hbound rfl (a.size.trans b.size.symm) (hfirst.trans hsecond.symm)
      (hfirstTag.trans hsecondTag.symm)
  · rw [h hbound]
    exact .same _ _

/-! ## Secret envelopes -/

theorem isParameterText_close (draw : Draw) (secret payload : Bytes) :
    IsParameterText (String.ofList (draw.close secret payload).parameterChars) := by
  have hsalt : (Base64.encode draw.salt).length = 16 := by
    rw [Base64.length_encode, draw.saltSize]
    rfl
  have hiv : (Base64.encode draw.iv.bytes).length = 16 := by
    rw [Base64.length_encode, draw.iv.size]
    rfl
  have htag : (Base64.encode (draw.close secret payload).tag).length = 24 := by
    rw [Base64.length_encode, Draw.close, Envelope.length_tag_close]
    rfl
  exact .mk draw.range.1 draw.range.2 hsalt hiv htag

/-- The ciphertext is as long as the payload. -/
theorem length_data_close (draw : Draw) (secret payload : Bytes) :
    (String.ofList (Base64.encode (draw.close secret payload).data)).length =
      4 * ((payload.length + 2) / 3) := by
  have hdata : (draw.close secret payload).data.length = payload.length :=
    Gcm.length_addKeystream ..
  rw [String.length_ofList, Base64.length_encode, hdata]

theorem secretEncrypt_alike (first second : RandomSource) (value : Value) (args : Arguments) :
    Alike (UpToDraws args .secretEncrypt) (secretEncrypt first value args)
      (secretEncrypt second value args) := by
  refine .same_bind fun secret _ => .same_bind fun payload _ => .ok ?_
  refine .envelope (isParameterText_close (.ofSource first) secret payload)
    (isParameterText_close (.ofSource second) secret payload) ?_
  exact (length_data_close (.ofSource first) secret payload).trans
    (length_data_close (.ofSource second) secret payload).symm

end Transform

/-! ## All transforms -/

/-- **Draws decide nothing but salts, nonces, round counts and what is made of them.** Whatever two
    sources a built-in transform is applied with, it fails with the same fault or succeeds, and the
    outputs are the same up to draws. If the salt is bound, or the nonce, derived keys and sealed
    boxes depend on the input and the arguments alone. -/
theorem Builtin.apply_alike :
    (∀ (builtin : Builtin) (first second : RandomSource) (value : Value) (args : Arguments),
      Alike (Transform.UpToDraws args builtin) (builtin.apply first value args)
        (builtin.apply second value args)) ∧
    (∀ builtin parameter,
      (builtin, parameter) ∈ [(deriveKey, Parameter.salt), (deriveKeyRecord, Parameter.salt),
        (aeadEncrypt, Parameter.nonce)] →
      ∀ (first second : RandomSource) (value : Value) (args : Arguments),
        parameter.bound? args ≠ none →
          builtin.apply first value args = builtin.apply second value args) := by
  have halike : ∀ (builtin : Builtin) (first second : RandomSource) (value : Value)
      (args : Arguments), Alike (Transform.UpToDraws args builtin)
        (builtin.apply first value args) (builtin.apply second value args) := by
    intro builtin first second value args
    cases builtin with
    | deriveKey => exact Transform.deriveKey_alike first second value args
    | deriveKeyRecord => exact Transform.deriveKeyRecord_alike first second value args
    | aeadEncrypt => exact Transform.aeadEncrypt_alike first second value args
    | secretEncrypt => exact Transform.secretEncrypt_alike first second value args
    | _ => exact .of_eq (Transform.UpToDraws.same _) rfl
  refine ⟨halike, ?_⟩
  intro builtin parameter hmem first second value args hbound
  refine (halike builtin first second value args).eq fun a b h => ?_
  simp only [List.mem_cons, Prod.mk.injEq, List.not_mem_nil, or_false] at hmem
  rcases hmem with ⟨rfl, rfl⟩ | ⟨rfl, rfl⟩ | ⟨rfl, rfl⟩ <;> cases h <;> trivial

end Pipework
