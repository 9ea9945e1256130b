import Pipework.Proofs.Codec.Bounds
import Pipework.Proofs.Crypto.Gcm
import Pipework.Proofs.Transform.Secret
import Pipework.Transform.Builtin

set_option autoImplicit false

/-! # No operation leaves its domain

Ciphers take keys and nonces of fixed lengths, a tag is split off only where there is one, keys are
derived in at least one iteration, chunks are not empty, and slices and lookups are in range. An
`Attempt` is a transform in which these operations are partial: where one of them is used outside
of its domain, the attempt aborts. No attempt ever does (`Builtin.attempt_settles`), so a built-in
transform ends with a value or a fault, whatever it is applied to. -/

namespace Pipework

/-! ## Attempts -/

/-- A computation that aborts or ends, and if it ends, then with a result or with a fault. -/
abbrev Attempt (α : Type) := ExceptT Fault Option α

namespace Attempt

variable {α β γ δ : Type}

/-- A computation that always ends. -/
def settle (result : Except Fault α) : Attempt α := ExceptT.mk (some result)

/-- The use of an operation that may have no result, which aborts. -/
def use (operation : Option α) : Attempt α := ExceptT.lift operation

/-- The computation does not abort, and ends with what `view` shows of this result. -/
def SettlesAs (view : α → γ) (attempt : Attempt γ) (result : Except Fault α) : Prop :=
  attempt.run = some (result.map view)

/-- The computation does not abort, and ends with this result. -/
abbrev Settles (attempt : Attempt α) (result : Except Fault α) : Prop :=
  SettlesAs (fun a => a) attempt result

section

variable {view : α → γ} {next : β → δ} {fault : Fault}

theorem settles_settle (result : Except Fault α) : (settle result).Settles result := by
  cases result <;> rfl

theorem Settles.run_eq {attempt : Attempt α} {result : Except Fault α}
    (h : attempt.Settles result) : attempt.run = some result := by
  cases result <;> exact h

theorem settles_pure (a : α) : SettlesAs view (pure (view a)) (.ok a) := rfl

theorem settles_throw : SettlesAs view (throw fault) (.error fault) := rfl

theorem SettlesAs.bind {attempt : Attempt γ} {result : Except Fault α} {f : γ → Attempt δ}
    {g : α → Except Fault β} (h : SettlesAs view attempt result)
    (hnext : ∀ a, result = .ok a → SettlesAs next (f (view a)) (g a)) :
    SettlesAs next (attempt >>= f) (result >>= g) := by
  cases result with
  | error fault =>
      obtain rfl : attempt = some (.error fault) := h
      rfl
  | ok a =>
      obtain rfl : attempt = some (.ok (view a)) := h
      exact hnext a rfl

theorem settle_bind {result : Except Fault α} {f : α → Attempt δ} {g : α → Except Fault β}
    (hnext : ∀ a, SettlesAs next (f a) (g a)) :
    SettlesAs next (settle result >>= f) (result >>= g) :=
  (settles_settle result).bind fun a _ => hnext a

theorem settles_use {operation : Option α} {a : α} (h : operation = some a) :
    (use operation).Settles (.ok a) := by
  subst h
  rfl

/-- An operation that is used within its domain is as good as its result. -/
theorem use_bind {operation : Option α} {a : α} {f : α → Attempt δ} {result : Except Fault β}
    (h : operation = some a) (hnext : SettlesAs next (f a) result) :
    SettlesAs next (use operation >>= f) result := by
  subst h
  exact hnext

/-- What stands behind a condition may rely on it. -/
theorem settles_ite {p : Prop} [Decidable p] {attempt : Attempt γ} {result : Except Fault α}
    (h : p → SettlesAs view attempt result) :
    SettlesAs view (if p then attempt else throw fault) (if p then result else .error fault) := by
  by_cases hp : p
  · rw [if_pos hp, if_pos hp]
    exact h hp
  · rw [if_neg hp, if_neg hp]
    exact settles_throw

theorem settles_dite {p : Prop} [Decidable p] {attempt : Attempt γ} {result : p → Except Fault α}
    (h : ∀ hp : p, SettlesAs view attempt (result hp)) :
    SettlesAs view (if p then attempt else throw fault)
      (if hp : p then result hp else .error fault) := by
  by_cases hp : p
  · rw [if_pos hp, dif_pos hp]
    exact h hp
  · rw [if_neg hp, dif_neg hp]
    exact settles_throw

end

/-! ## Partial operations -/

/-- A cipher is keyed with 16 or 32 bytes. -/
def cipherKey? (bytes : Bytes) : Option Aes.Key :=
  if h : bytes.length = 16 ∨ bytes.length = 32 then some ⟨bytes, h⟩ else none

/-- A nonce is made of exactly 12 bytes. -/
def nonce? (bytes : Bytes) : Option Gcm.Nonce :=
  if h : bytes.length = 12 then some ⟨bytes, h⟩ else none

/-- The last 16 bytes are split off from as many at least. -/
def splitTag? (bytes : Bytes) : Option (Bytes × Bytes) :=
  if 16 ≤ bytes.length then some (bytes.splitAt (bytes.length - 16)) else none

/-- From 1 to 1024 bytes are derived in at least one iteration. -/
def derive? (password salt : Bytes) (iterations length : Nat) : Option Bytes :=
  if 1 ≤ iterations ∧ 1 ≤ length ∧ length ≤ 1024 then
    some (Pbkdf2.derive password salt iterations length)
  else none

/-- A number is drawn below a bound that is not zero. -/
def below? (source : RandomSource) (bound : Nat) : Option Nat :=
  if 0 < bound then some (source.below bound) else none

theorem cipherKey?_eq {bytes : Bytes} (h : bytes.length = 16 ∨ bytes.length = 32) :
    cipherKey? bytes = some ⟨bytes, h⟩ := dif_pos h

theorem nonce?_eq {bytes : Bytes} (h : bytes.length = Gcm.nonceLength) :
    nonce? bytes = some ⟨bytes, h⟩ := dif_pos h

theorem splitTag?_append {bytes tag : Bytes} (h : tag.length = Gcm.tagLength) :
    splitTag? (bytes ++ tag) = some (bytes, tag) := by
  have hsum : (bytes ++ tag).length = bytes.length + 16 := by
    rw [List.length_append, h]
    rfl
  rw [splitTag?, hsum, if_pos (Nat.le_add_left ..), Nat.add_sub_cancel, List.splitAt_eq,
    List.take_left, List.drop_left]

/-- What a cipher makes of a plaintext: the ciphertext with the tag behind it. -/
def sealedText (key : Aes.Key) (nonce : Gcm.Nonce) (associated plaintext : Bytes) : Bytes :=
  (Gcm.sealed key nonce associated plaintext).1 ++ (Gcm.sealed key nonce associated plaintext).2

/-- Sealing leaves enough behind the plaintext to split off the tag. -/
theorem splitTag?_sealedText (key : Aes.Key) (nonce : Gcm.Nonce) (associated plaintext : Bytes) :
    splitTag? (sealedText key nonce associated plaintext) =
      some (Gcm.sealed key nonce associated plaintext) :=
  splitTag?_append (Gcm.length_of_sealed_eq rfl).2

/-! ## Notations -/

/-- `Transform.hexToBytes` with the place of a fault looked up. -/
def hexToBytes (value : Value) : Attempt Value := do
  let text ← settle value.expectText
  let decoded ← use (Hex.decodeByTable text.toList)
  return .bytes (← settle (decoded.mapError Fault.hex))

/-- `Transform.bytesToHex` with chunks. -/
def bytesToHex (value : Value) (args : Arguments) : Attempt Value := do
  let bytes ← settle value.expectBytes
  let separator := (← settle (Parameter.separator.text? args)).getD ""
  let perBlock := (← settle (Parameter.bytesPerBlock.nat? args)).getD 1
  let upper := (← settle (Parameter.upper.bool? args)).getD false
  let digits ← use (Hex.encodeByChunks upper separator.toList perBlock bytes)
  return .text (String.ofList digits)

/-- `Transform.percentDecode` with slices. -/
def percentDecode (value : Value) : Attempt Value := do
  let text ← settle value.expectText
  let decoded ← use (Percent.decodeBySlices text)
  return .text (← settle (decoded.mapError Fault.percent))

theorem hexToBytes_settles (value : Value) :
    (hexToBytes value).Settles (Transform.hexToBytes value) := by
  refine settle_bind fun text => use_bind (Hex.decodeByTable_eq _) ?_
  exact settle_bind fun bytes => settles_pure _

theorem bytesToHex_settles (value : Value) (args : Arguments) :
    (bytesToHex value args).Settles (Transform.bytesToHex value args) := by
  refine settle_bind fun bytes => settle_bind fun separator => settle_bind fun perBlock => ?_
  exact settle_bind fun upper => use_bind (Hex.encodeByChunks_eq ..) (settles_pure _)

theorem percentDecode_settles (value : Value) :
    (percentDecode value).Settles (Transform.percentDecode value) := by
  refine settle_bind fun text => use_bind (Percent.decodeBySlices_eq _) ?_
  exact settle_bind fun decoded => settles_pure _

/-! ## Derived keys -/

/-- A key that was derived, and from what. -/
structure Derived where
  key : Bytes
  salt : Bytes
  iterations : Nat

/-- The key that an input and its arguments ask for. -/
def derived (source : RandomSource) (value : Value) (args : Arguments) : Attempt Derived := do
  let password ← settle value.expectByteLike
  let length := (← settle (Parameter.length.nat? args)).getD Transform.defaultKeyLength
  let iterations := (← settle (Parameter.iterations.nat32? args)).getD Transform.defaultIterations
  if 0 < length ∧ length ≤ Transform.maxKeyLength then
    if 0 < iterations then
      let salt := (← settle (Parameter.salt.bytes? args)).getD (source.take Transform.saltLength)
      let key ← use (derive? password salt iterations length)
      return ⟨key, salt, iterations⟩
    else throw (.argument .iterations .noIterations)
  else throw (.argument .length (.badLength Transform.maxKeyLength))

/-- `Transform.deriveKey` by an attempt. -/
def deriveKey (source : RandomSource) (value : Value) (args : Arguments) : Attempt Value := do
  let d ← derived source value args
  return .bytes d.key

/-- `Transform.deriveKeyRecord` by an attempt. -/
def deriveKeyRecord (source : RandomSource) (value : Value) (args : Arguments) :
    Attempt Value := do
  let d ← derived source value args
  return .map (Dict.ofList
    [("key", .bytes d.key), ("salt", .bytes d.salt),
      ("iterations", .int (Int64.ofNat d.iterations))])

/-- What the derivation gives. -/
def Derived.of (d : Transform.Derivation) : Derived := ⟨d.key, d.salt, d.iterations⟩

theorem derived_settles (source : RandomSource) (value : Value) (args : Arguments) :
    SettlesAs Derived.of (derived source value args) (Transform.derivation source value args) := by
  refine settle_bind fun password => settle_bind fun length => settle_bind fun iterations => ?_
  refine settles_dite fun hlength => settles_dite fun hiterations => settle_bind fun salt => ?_
  exact use_bind (if_pos ⟨hiterations, hlength⟩) (settles_pure _)

theorem deriveKey_settles (source : RandomSource) (value : Value) (args : Arguments) :
    (deriveKey source value args).Settles (Transform.deriveKey source value args) :=
  (derived_settles source value args).bind fun _ _ => settles_pure _

theorem deriveKeyRecord_settles (source : RandomSource) (value : Value) (args : Arguments) :
    (deriveKeyRecord source value args).Settles
      (Transform.deriveKeyRecord source value args) :=
  (derived_settles source value args).bind fun _ _ => settles_pure _

/-! ## Sealed boxes -/

/-- A cipher keyed with the bytes that are bound. -/
def keyed (args : Arguments) : Attempt Aes.Key := do
  let bytes ← settle (Parameter.key.bytes args)
  if bytes.length = 16 ∨ bytes.length = 32 then use (cipherKey? bytes)
  else throw (.argument .key (.badKey bytes.length))

/-- A nonce of the bytes that are bound or drawn. -/
def nonce (source : RandomSource) (args : Arguments) : Attempt Gcm.Nonce := do
  match ← settle (Parameter.nonce.bytes? args) with
  | none => use (nonce? (source.take Gcm.nonceLength))
  | some bytes =>
    if bytes.length = Gcm.nonceLength then use (nonce? bytes)
    else throw (.argument .nonce (.badNonce Gcm.nonceLength bytes.length))

/-- `Transform.aeadEncrypt` with the tag split off from what the cipher gives. -/
def aeadEncrypt (source : RandomSource) (value : Value) (args : Arguments) : Attempt Value := do
  let plaintext ← settle value.expectByteLike
  let key ← keyed args
  let associated := (← settle (Parameter.associated.bytes? args)).getD []
  let nonce ← nonce source args
  let (ciphertext, tag) ← use (splitTag? (sealedText key nonce associated plaintext))
  return .sealedBox { nonce := nonce.bytes, associated, ciphertext, tag }

/-- `Transform.aeadDecrypt` with the tag split off from what the cipher is given. -/
def aeadDecrypt (value : Value) (args : Arguments) : Attempt Value := do
  let box ← settle (SealedBox.ofValue value)
  let key ← keyed args
  if box.nonce.length = Gcm.nonceLength then
    if box.tag.length = Gcm.tagLength then
      let nonce ← use (nonce? box.nonce)
      let (ciphertext, tag) ← use (splitTag? (box.ciphertext ++ box.tag))
      match Gcm.opened key nonce box.associated ciphertext tag with
      | some plaintext => return .bytes plaintext
      | none => throw .authentication
    else throw (.box (.tagLength Gcm.tagLength box.tag.length))
  else throw (.box (.nonceLength Gcm.nonceLength box.nonce.length))

theorem keyed_settles (args : Arguments) : (keyed args).Settles (Transform.cipherKey args) := by
  refine settle_bind fun bytes => settles_dite fun h => ?_
  exact settles_use (cipherKey?_eq h)

theorem nonce_settles (source : RandomSource) (args : Arguments) :
    (nonce source args).Settles (Transform.boundNonce source args) := by
  refine settle_bind fun bound => ?_
  cases bound with
  | none => exact settles_use (nonce?_eq (Transform.drawNonce source).size)
  | some bytes => exact settles_dite fun h => settles_use (nonce?_eq h)

theorem aeadEncrypt_settles (source : RandomSource) (value : Value) (args : Arguments) :
    (aeadEncrypt source value args).Settles (Transform.aeadEncrypt source value args) := by
  refine settle_bind fun plaintext => (keyed_settles args).bind fun key _ => ?_
  refine settle_bind fun associated => (nonce_settles source args).bind fun nonce _ => ?_
  exact use_bind (splitTag?_sealedText ..) (settles_pure _)

theorem aeadDecrypt_settles (value : Value) (args : Arguments) :
    (aeadDecrypt value args).Settles (Transform.aeadDecrypt value args) := by
  refine settle_bind fun box => (keyed_settles args).bind fun key _ => ?_
  refine settles_dite fun hnonce => settles_ite fun htag => ?_
  refine use_bind (nonce?_eq hnonce) (use_bind (splitTag?_append htag) ?_)
  dsimp only
  cases Gcm.opened key ⟨box.nonce, hnonce⟩ box.associated box.ciphertext box.tag with
  | some plaintext => exact settles_pure _
  | none => exact settles_throw

/-! ## Secret envelopes -/

/-- A cipher keyed with what is derived from a secret. -/
def secretKey (secret salt : Bytes) (rounds : Nat) : Attempt Aes.Key := do
  let bytes ← use (derive? secret salt rounds 32)
  use (cipherKey? bytes)

/-- `Transform.secretEncrypt` by an attempt. -/
def secretEncrypt (source : RandomSource) (value : Value) (args : Arguments) : Attempt Value := do
  let secret ← settle (Parameter.secret.bytes args)
  let payload ← settle (Transform.payload value)
  let rounds := Envelope.minRounds + (← use (below? source Envelope.roundsSpread))
  let salt := (source.drop 8).take Envelope.saltLength
  let key ← secretKey secret salt rounds
  let iv ← use (nonce? ((source.drop (8 + Envelope.saltLength)).take Gcm.nonceLength))
  let (data, tag) ← use (splitTag? (sealedText key iv [] payload))
  let envelope : Envelope := { rounds, salt, iv, tag, data }
  return envelope.toValue

/-- The parts of an envelope as they are read. -/
structure Parts where
  rounds : Nat
  salt : Bytes
  iv : Bytes
  tag : Bytes
  data : Bytes

/-- The parts that an envelope has. -/
def Parts.of (envelope : Envelope) : Parts :=
  ⟨envelope.rounds, envelope.salt, envelope.iv.bytes, envelope.tag, envelope.data⟩

/-- The parts of the envelope whose map form `entries` is. -/
def parts (entries : Dict Value) : Attempt Parts := do
  let parameters ← settle (Envelope.textField entries .parameters)
  match Text.splitOn Envelope.separator parameters.toList with
  | [rounds, salt, iv, tag] =>
    let rounds ← settle (Envelope.decodeRounds rounds)
    let salt ← settle (Envelope.decodePart .salt salt)
    let iv ← settle (Envelope.decodePart .iv iv)
    let tag ← settle (Envelope.decodePart .tag tag)
    if iv.length = Gcm.nonceLength then
      if tag.length = Gcm.tagLength then
        let data ← settle (Envelope.textField entries .data)
        let data ← settle (Envelope.decodePart .data data.toList)
        return { rounds, salt, iv, tag, data }
      else throw (.envelope (.wrongLength .tag Gcm.tagLength tag.length))
    else throw (.envelope (.wrongLength .iv Gcm.nonceLength iv.length))
  | parts => throw (.envelope (.parameterCount 4 parts.length))

/-- `Transform.secretDecrypt` by an attempt. -/
def secretDecrypt (value : Value) (args : Arguments) : Attempt Value := do
  let secret ← settle (Parameter.secret.bytes args)
  match value with
  | .map entries =>
    let parts ← parts entries
    let key ← secretKey secret parts.salt parts.rounds
    let iv ← use (nonce? parts.iv)
    let (data, tag) ← use (splitTag? (parts.data ++ parts.tag))
    match Gcm.opened key iv [] data tag with
    | some bytes => return Transform.ofPayload bytes
    | none => throw .authentication
  | other => throw (.wrongKind .envelope other.kind)

theorem secretKey_bind {secret salt : Bytes} {rounds : Nat} {next : β → δ} {f : Aes.Key → Attempt δ}
    {result : Except Fault β} (h : 0 < rounds)
    (hnext : SettlesAs next (f (Envelope.key secret salt rounds)) result) :
    SettlesAs next (secretKey secret salt rounds >>= f) result := by
  rw [secretKey, bind_assoc]
  refine use_bind (if_pos ⟨h, by decide⟩) (use_bind (cipherKey?_eq ?_) hnext)
  exact Or.inr (Pbkdf2.length_derive ..)

theorem secretEncrypt_settles (source : RandomSource) (value : Value) (args : Arguments) :
    (secretEncrypt source value args).Settles (Transform.secretEncrypt source value args) := by
  have hrounds : 0 < Envelope.minRounds + source.below Envelope.roundsSpread :=
    Nat.lt_of_lt_of_le (by decide) (Nat.le_add_right ..)
  refine settle_bind fun secret => settle_bind fun payload => ?_
  refine use_bind (if_pos (by decide)) (secretKey_bind hrounds ?_)
  refine use_bind (nonce?_eq (RandomSource.length_take ..)) ?_
  exact use_bind (splitTag?_sealedText ..) (settles_pure _)

theorem parts_settles (entries : Dict Value) :
    SettlesAs Parts.of (parts entries) (Envelope.ofEntries entries) := by
  refine settle_bind fun parameters => ?_
  rcases Text.splitOn Envelope.separator parameters.toList with
    _ | ⟨rounds, _ | ⟨salt, _ | ⟨iv, _ | ⟨tag, _ | ⟨extra, more⟩⟩⟩⟩⟩
  case cons.cons.cons.cons.nil =>
    refine settle_bind fun rounds => settle_bind fun salt => settle_bind fun iv => ?_
    refine settle_bind fun tag => settles_dite fun hiv => settles_ite fun htag => ?_
    exact settle_bind fun text => settle_bind fun data => settles_pure _
  all_goals exact settles_throw

theorem secretDecrypt_settles (value : Value) (args : Arguments) :
    (secretDecrypt value args).Settles (Transform.secretDecrypt value args) := by
  refine settle_bind fun secret => ?_
  cases value with
  | map entries =>
      refine (parts_settles entries).bind fun envelope henvelope => ?_
      -- what was read is within bounds
      obtain ⟨_, _, _, _, _, _, _, _, hrange, htag⟩ := Envelope.ofEntries_eq_ok_iff.1 henvelope
      have hrounds : 0 < envelope.rounds := Nat.lt_of_lt_of_le (by decide) hrange.1
      refine secretKey_bind hrounds (use_bind (nonce?_eq envelope.iv.size) ?_)
      refine use_bind (splitTag?_append htag) ?_
      simp only [Parts.of, Envelope.open?]
      cases Gcm.opened (Envelope.key secret envelope.salt envelope.rounds) envelope.iv []
        envelope.data envelope.tag with
      | some bytes => exact settles_pure _
      | none => exact settles_throw
  | _ => exact settles_throw

/-! ## All transforms -/

end Attempt

/-- What a transform attempts; all but those above use total operations alone. -/
def Builtin.attempt (builtin : Builtin) (source : RandomSource) (value : Value)
    (args : Arguments) : Attempt Value :=
  match builtin with
  | hexToBytes => Attempt.hexToBytes value
  | bytesToHex => Attempt.bytesToHex value args
  | percentDecode => Attempt.percentDecode value
  | deriveKey => Attempt.deriveKey source value args
  | deriveKeyRecord => Attempt.deriveKeyRecord source value args
  | aeadEncrypt => Attempt.aeadEncrypt source value args
  | aeadDecrypt => Attempt.aeadDecrypt value args
  | secretEncrypt => Attempt.secretEncrypt source value args
  | secretDecrypt => Attempt.secretDecrypt value args
  | other => .settle (other.apply source value args)

/-- **No attempt aborts.** Whatever a built-in transform is applied to and whatever it draws, none
    of its operations is used outside of its domain, and it ends with a value or a fault. -/
theorem Builtin.attempt_settles (builtin : Builtin) (source : RandomSource) (value : Value)
    (args : Arguments) :
    (builtin.attempt source value args).run = some (builtin.apply source value args) := by
  refine Attempt.Settles.run_eq ?_
  cases builtin with
  | hexToBytes => exact Attempt.hexToBytes_settles value
  | bytesToHex => exact Attempt.bytesToHex_settles value args
  | percentDecode => exact Attempt.percentDecode_settles value
  | deriveKey => exact Attempt.deriveKey_settles source value args
  | deriveKeyRecord => exact Attempt.deriveKeyRecord_settles source value args
  | aeadEncrypt => exact Attempt.aeadEncrypt_settles source value args
  | aeadDecrypt => exact Attempt.aeadDecrypt_settles value args
  | secretEncrypt => exact Attempt.secretEncrypt_settles source value args
  | secretDecrypt => exact Attempt.secretDecrypt_settles value args
  | _ => exact Attempt.settles_settle _

end Pipework
