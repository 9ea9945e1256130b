import Pipework.Proofs.Arguments
import Pipework.Proofs.Crypto.Gcm
import Pipework.Proofs.Data.Except
import Pipework.Transform.Envelope

set_option autoImplicit false

/-! # What is checked before an envelope is opened

Conditions on an input and on the secret are checked one after the other (`Check.all`), and the
first that does not hold decides the error (`Guarded`). A key is derived only behind the last of
them (`Transform.openings`), and then nothing but the cipher has a say, under the key that PBKDF2
derives (`Transform.SealsTo`, `Transform.secretDecrypt_checks_in_order`). -/

namespace Pipework

namespace Transform

/-! ## Parts of an input -/

/-- The text under the name of a part, if the input is a map. -/
def partText? (value : Value) (part : EnvelopePart) : Option String :=
  match value with
  | .map entries => (entries.get? part.name).bind Value.text?
  | _ => none

/-- The pieces of the parameters between dollar signs. -/
def pieces (value : Value) : List (List Char) :=
  match partText? value .parameters with
  | some parameters => Text.splitOn '$' parameters.toList
  | none => []

/-- The number that the first piece spells. -/
def rounds? (value : Value) : Option Nat := (pieces value)[0]?.bind Text.nat32?

/-- The characters of a part that is written in base64. -/
def partChars? (value : Value) : EnvelopePart → Option (List Char)
  | .parameters => none
  | .salt => (pieces value)[1]?
  | .iv => (pieces value)[2]?
  | .tag => (pieces value)[3]?
  | .data => (partText? value .data).map String.toList

/-- The bytes of a part that is written in base64. -/
def partBytes? (value : Value) (part : EnvelopePart) : Option Bytes :=
  (partChars? value part).bind fun chars => (Base64.decode chars).toOption

/-! ## Conditions -/

/-- A condition on the input of `secretDecrypt` and its arguments. -/
inductive Check
  | secret
  | map
  /-- There is a text under the name of the part. -/
  | text (part : EnvelopePart)
  /-- There are four parameters. -/
  | count
  | rounds
  /-- The number of rounds is neither too small nor too large. -/
  | range
  | base64 (part : EnvelopePart)
  | length (part : EnvelopePart) (bytes : Nat)
deriving DecidableEq

namespace Check

/-- All conditions, in the order in which they are checked. -/
def all : List Check :=
  [secret, map, text .parameters, count, rounds, range, base64 .salt, base64 .iv, base64 .tag,
    length .iv 12, length .tag 16, text .data, base64 .data]

def Holds (value : Value) (args : Arguments) : Check → Prop
  | secret =>
    ∃ given, Parameter.secret.bound? args = some given ∧ (given.kind = .text ∨ given.kind = .bytes)
  | map => value.kind = .map
  | text part => ∃ found, partText? value part = some found
  | count => (pieces value).length = 4
  | rounds => ∃ found, rounds? value = some found
  | range => ∃ found, rounds? value = some found ∧ 100 ≤ found ∧ found ≤ 1099
  | base64 part => ∃ found, partBytes? value part = some found
  | length part bytes => ∃ found, partBytes? value part = some found ∧ found.length = bytes

/-- The fault of an input for which the condition is the first that does not hold. -/
def fault (value : Value) (args : Arguments) : Check → Fault
  | secret =>
    .argument .secret
      (match Parameter.secret.bound? args with
      | none => .missing
      | some given => .notBytes given.kind)
  | map => .wrongKind .envelope value.kind
  | text part => .envelope (.missingText part)
  | count => .envelope (.parameterCount 4 (pieces value).length)
  | rounds => .envelope .roundsNotNumber
  | range => .envelope (.roundsOutOfRange 100 1099)
  | base64 part => .envelope (.notBase64 part)
  | length part bytes =>
    .envelope (.wrongLength part bytes ((partBytes? value part).getD []).length)

/-- A condition on the content of a map is one of format. -/
theorem exists_toError_fault_eq_format (value : Value) (args : Arguments) {check : Check}
    (hsecret : check ≠ secret) (hmap : check ≠ map) :
    ∃ reason, (check.fault value args).toError = .format "secret envelope" reason := by
  cases check with
  | secret => exact absurd rfl hsecret
  | map => exact absurd rfl hmap
  | _ => exact ⟨_, rfl⟩

end Check

/-! ## Results that are guarded -/

variable {value : Value} {args : Arguments} {α β : Type}

/-- The first of `checks` that does not hold decides the error; if all hold, there is something that
    satisfies `P`. -/
def Guarded (value : Value) (args : Arguments) (P : α → Prop) : List Check → Except Fault α → Prop
  | [], result => ∃ a, result = .ok a ∧ P a
  | check :: rest, result =>
    (check.Holds value args → Guarded value args P rest result) ∧
      (¬check.Holds value args → result = .error (check.fault value args))

theorem Guarded.bind {P : α → Prop} {Q : β → Prop} {checks rest : List Check}
    {result : Except Fault α} {next : α → Except Fault β} (h : Guarded value args P checks result)
    (hnext : ∀ a, P a → Guarded value args Q rest (next a)) :
    Guarded value args Q (checks ++ rest) (result >>= next) := by
  induction checks with
  | nil =>
      obtain ⟨a, rfl, ha⟩ := h
      exact hnext a ha
  | cons check checks ih =>
      refine ⟨fun hcheck => ih (h.1 hcheck), fun hcheck => ?_⟩
      rw [h.2 hcheck]
      rfl

theorem Guarded.map {P : α → Prop} {Q : β → Prop} {checks : List Check} {result : Except Fault α}
    (h : Guarded value args P checks result) {f : α → β} (hf : ∀ a, P a → Q (f a)) :
    Guarded value args Q checks (do return f (← result)) := by
  rw [← List.append_nil checks]
  exact h.bind fun a ha => ⟨f a, rfl, hf a ha⟩

theorem Guarded.of_not_holds {P : α → Prop} {check : Check} (rest : List Check)
    (h : ¬check.Holds value args) :
    Guarded value args P (check :: rest) (.error (check.fault value args)) :=
  ⟨fun hcheck => absurd hcheck h, fun _ => rfl⟩

theorem Guarded.of_holds {P : α → Prop} {check : Check} {rest : List Check}
    {result : Except Fault α} (hcheck : check.Holds value args)
    (h : Guarded value args P rest result) : Guarded value args P (check :: rest) result :=
  ⟨fun _ => h, fun hnot => absurd hcheck hnot⟩

/-- Either a condition is the first that does not hold, or all do. -/
theorem Guarded.cases {P : α → Prop} {checks : List Check} {result : Except Fault α}
    (h : Guarded value args P checks result) :
    (∃ before check after, checks = before ++ check :: after ∧
      (∀ earlier ∈ before, earlier.Holds value args) ∧ ¬check.Holds value args ∧
      result = .error (check.fault value args)) ∨
    ((∀ check ∈ checks, check.Holds value args) ∧ ∃ a, result = .ok a ∧ P a) := by
  induction checks with
  | nil => exact Or.inr ⟨nofun, h⟩
  | cons check rest ih =>
      by_cases hcheck : check.Holds value args
      · rcases ih (h.1 hcheck) with ⟨before, first, after, rfl, hbefore, hfirst⟩ | ⟨hall, hresult⟩
        · exact Or.inl ⟨check :: before, first, after, rfl,
            List.forall_mem_cons.2 ⟨hcheck, hbefore⟩, hfirst⟩
        · exact Or.inr ⟨List.forall_mem_cons.2 ⟨hcheck, hall⟩, hresult⟩
      · exact Or.inl ⟨[], check, rest, rfl, nofun, hcheck, h.2 hcheck⟩

/-! ## The checks of the reader -/

theorem guarded_secret :
    Guarded value args (Parameter.secret.bytes args = .ok ·) [.secret]
      (Parameter.secret.bytes args) := by
  have hread := Parameter.secret.bytes_eq_match_bound? args
  cases hbound : Parameter.secret.bound? args with
  | none =>
      rw [hbound] at hread
      constructor
      · rintro ⟨given, hgiven, -⟩
        cases hbound.symm.trans hgiven
      · exact fun _ => hread.trans (by rw [Check.fault, hbound])
  | some given =>
      rw [hbound] at hread
      by_cases hkind : given.kind = .text ∨ given.kind = .bytes
      · refine .of_holds ⟨given, hbound, hkind⟩ ?_
        cases given with
        | text s => exact ⟨_, hread, hread⟩
        | bytes b => exact ⟨_, hread, hread⟩
        | _ => rcases hkind with hkind | hkind <;> cases hkind
      · constructor
        · rintro ⟨same, hsame, hsameKind⟩
          obtain rfl := Option.some.inj (hbound.symm.trans hsame)
          exact absurd hsameKind hkind
        · intro _
          rw [hread, Check.fault, hbound]
          cases given with
          | text s => exact absurd (Or.inl rfl) hkind
          | bytes b => exact absurd (Or.inr rfl) hkind
          | _ => rfl

theorem guarded_textField (entries : Dict Value) (part : EnvelopePart) :
    Guarded (.map entries) args (partText? (.map entries) part = some ·) [.text part]
      (Envelope.textField entries part) := by
  unfold Envelope.textField
  cases hfound : (entries.get? part.name).bind Value.text? with
  | none =>
      refine .of_not_holds _ ?_
      rintro ⟨found, h⟩
      cases hfound.symm.trans h
  | some found => exact .of_holds ⟨found, hfound⟩ ⟨found, rfl, hfound⟩

theorem guarded_decodePart {part : EnvelopePart} {chars : List Char}
    (h : partChars? value part = some chars) :
    Guarded value args (partBytes? value part = some ·) [.base64 part]
      (Envelope.decodePart part chars) := by
  have hbytes : partBytes? value part = (Base64.decode chars).toOption := by
    rw [partBytes?, h, Option.bind_some]
  unfold Envelope.decodePart
  cases hdecode : Base64.decode chars with
  | error error =>
      refine .of_not_holds _ ?_
      rintro ⟨found, hfound⟩
      rw [hbytes, hdecode] at hfound
      cases hfound
  | ok bytes =>
      have hfound : partBytes? value part = some bytes := by
        rw [hbytes, hdecode]
        rfl
      exact .of_holds ⟨bytes, hfound⟩ ⟨bytes, rfl, hfound⟩

theorem guarded_decodeRounds {chars : List Char} (h : (pieces value)[0]? = some chars) :
    Guarded value args (rounds? value = some ·) [.rounds, .range]
      (Envelope.decodeRounds chars) := by
  have hrounds : rounds? value = Text.nat32? chars := by
    rw [rounds?, h, Option.bind_some]
  unfold Envelope.decodeRounds
  cases hread : Text.nat32? chars with
  | none =>
      refine .of_not_holds _ ?_
      rintro ⟨found, hfound⟩
      cases hread.symm.trans (hrounds.symm.trans hfound)
  | some rounds =>
      have hfound : rounds? value = some rounds := hrounds.trans hread
      refine .of_holds ⟨rounds, hfound⟩ ?_
      by_cases hrange : Envelope.minRounds ≤ rounds ∧ rounds ≤ Envelope.maxRounds
      · simp only [if_pos hrange]
        exact .of_holds ⟨rounds, hfound, hrange⟩ ⟨rounds, rfl, hfound⟩
      · simp only [if_neg hrange]
        refine .of_not_holds _ ?_
        rintro ⟨found, hsame, hholds⟩
        obtain rfl := Option.some.inj (hfound.symm.trans hsame)
        exact hrange hholds

theorem Guarded.of_length {P : α → Prop} {part : EnvelopePart} {bytes : Bytes} {count : Nat}
    (hbytes : partBytes? value part = some bytes) {rest : List Check} {result : Except Fault α}
    (hok : bytes.length = count → Guarded value args P rest result)
    (herror : bytes.length ≠ count →
      result = .error (.envelope (.wrongLength part count bytes.length))) :
    Guarded value args P (.length part count :: rest) result := by
  constructor
  · rintro ⟨found, hfound, hcount⟩
    obtain rfl := Option.some.inj (hbytes.symm.trans hfound)
    exact hok hcount
  · intro hnot
    rw [herror fun hcount => hnot ⟨bytes, hbytes, hcount⟩, Check.fault, hbytes, Option.getD_some]

/-- The envelope consists of the parts of the input. -/
structure ReadFrom (value : Value) (envelope : Envelope) : Prop where
  rounds : rounds? value = some envelope.rounds
  salt : partBytes? value .salt = some envelope.salt
  iv : partBytes? value .iv = some envelope.iv.bytes
  tag : partBytes? value .tag = some envelope.tag
  data : partBytes? value .data = some envelope.data

theorem guarded_ofEntries (entries : Dict Value) :
    Guarded (.map entries) args (ReadFrom (.map entries))
      [.text .parameters, .count, .rounds, .range, .base64 .salt, .base64 .iv, .base64 .tag,
        .length .iv 12, .length .tag 16, .text .data, .base64 .data]
      (Envelope.ofEntries entries) := by
  unfold Envelope.ofEntries
  refine (guarded_textField entries .parameters).bind fun parameters hparameters => ?_
  have hpieces : pieces (.map entries) = Text.splitOn Envelope.separator parameters.toList := by
    simp only [pieces, hparameters]
    rfl
  split
  · next rounds salt iv tag hsplit =>
      rw [hsplit] at hpieces
      have hat (index : Nat) :
          (pieces (.map entries))[index]? = [rounds, salt, iv, tag][index]? := by
        rw [hpieces]
      refine .of_holds (congrArg List.length hpieces) ?_
      refine (guarded_decodeRounds (hat 0)).bind fun rounds hrounds => ?_
      have hsaltChars : partChars? (.map entries) .salt = some salt := hat 1
      have hivChars : partChars? (.map entries) .iv = some iv := hat 2
      have htagChars : partChars? (.map entries) .tag = some tag := hat 3
      refine (guarded_decodePart hsaltChars).bind fun salt hsalt => ?_
      refine (guarded_decodePart hivChars).bind fun iv hiv => ?_
      refine (guarded_decodePart htagChars).bind fun tag htag => ?_
      refine .of_length hiv (fun (hlength : iv.length = Gcm.nonceLength) => ?_)
        fun hlength => dif_neg hlength
      rw [dif_pos hlength]
      refine .of_length htag (fun (hlength : tag.length = Gcm.tagLength) => ?_)
        fun hlength => if_neg hlength
      rw [if_pos hlength]
      refine (guarded_textField entries .data).bind fun data hdata => ?_
      have hdataChars : partChars? (.map entries) .data = some data.toList := by
        rw [partChars?, hdata, Option.map_some]
      refine (guarded_decodePart hdataChars).bind fun data hdata => ?_
      exact ⟨_, rfl, hrounds, hsalt, hiv, htag, hdata⟩
  · next hother =>
      constructor
      · intro hcount
        rw [Check.Holds, hpieces] at hcount
        obtain ⟨rounds, salt, iv, tag, hsplit⟩ := List.length_eq_four.1 hcount
        exact absurd hsplit (hother rounds salt iv tag)
      · intro _
        rw [Check.fault, hpieces]

/-! ## Opening under observation -/

/-- The secret and the envelope of an input, before anything is derived. -/
def inspect (value : Value) (args : Arguments) : Except Fault (Bytes × Envelope) := do
  let secret ← Parameter.secret.bytes args
  match value with
  | .map entries => return (secret, ← Envelope.ofEntries entries)
  | other => .error (.wrongKind .envelope other.kind)

theorem guarded_inspect :
    Guarded value args (fun found => Parameter.secret.bytes args = .ok found.1 ∧
      ReadFrom value found.2) Check.all (inspect value args) := by
  refine guarded_secret.bind fun secret hsecret => ?_
  cases value with
  | map entries =>
      exact .of_holds rfl ((guarded_ofEntries entries).map fun _ henvelope => ⟨hsecret, henvelope⟩)
  | _ => exact .of_not_holds _ nofun

/-- `secretDecrypt` with some other way to open an envelope. -/
def secretDecryptBy {m : Type → Type} [Monad m] (opens : Bytes → Envelope → m (Option Bytes))
    (value : Value) (args : Arguments) : m (Except Fault Value) :=
  match Parameter.secret.bytes args with
  | .error fault => return .error fault
  | .ok secret =>
    match value with
    | .map entries =>
      match Envelope.ofEntries entries with
      | .error fault => return .error fault
      | .ok envelope => do
        match ← opens secret envelope with
        | some bytes => return .ok (ofPayload bytes)
        | none => return .error .authentication
    | other => return .error (.wrongKind .envelope other.kind)

theorem secretDecryptBy_open? (value : Value) (args : Arguments) :
    Id.run (secretDecryptBy (fun secret envelope => envelope.open? secret) value args) =
      secretDecrypt value args := by
  unfold secretDecryptBy secretDecrypt
  cases Parameter.secret.bytes args with
  | error fault => rfl
  | ok secret =>
      cases value with
      | map entries =>
          cases hentries : Envelope.ofEntries entries with
          | error fault => simp only [hentries]; rfl
          | ok envelope =>
              simp only [hentries]
              show _ = match envelope.open? secret with | some bytes => _ | none => _
              cases envelope.open? secret <;> rfl
      | _ => rfl

/-- Nothing is opened unless the input passes inspection, and then one envelope is. -/
theorem secretDecryptBy_eq {m : Type → Type} [Monad m]
    (opens : Bytes → Envelope → m (Option Bytes)) (value : Value) (args : Arguments) :
    secretDecryptBy opens value args =
      match inspect value args with
      | .error fault => pure (.error fault)
      | .ok (secret, envelope) => do
        match ← opens secret envelope with
        | some bytes => return .ok (ofPayload bytes)
        | none => return .error .authentication := by
  unfold secretDecryptBy inspect
  cases Parameter.secret.bytes args with
  | error fault => rfl
  | ok secret =>
      cases value with
      | map entries => cases hentries : Envelope.ofEntries entries <;> simp only [hentries] <;> rfl
      | _ => rfl

theorem secretDecrypt_eq (value : Value) (args : Arguments) :
    secretDecrypt value args =
      match inspect value args with
      | .error fault => .error fault
      | .ok (secret, envelope) =>
        match envelope.open? secret with
        | some bytes => .ok (ofPayload bytes)
        | none => .error .authentication := by
  rw [← secretDecryptBy_open?, secretDecryptBy_eq]
  cases inspect value args with
  | error fault => rfl
  | ok found =>
      obtain ⟨secret, envelope⟩ := found
      simp only [Id.run, bind]
      cases envelope.open? secret <;> rfl

/-- Opens an envelope and adds it to those that were opened before. -/
def openRecorded (secret : Bytes) (envelope : Envelope) :
    StateM (List (Bytes × Envelope)) (Option Bytes) :=
  fun opened => (envelope.open? secret, opened ++ [(secret, envelope)])

/-- The envelopes that are opened, each with the secret from which its key is derived. -/
def openings (value : Value) (args : Arguments) : List (Bytes × Envelope) :=
  ((secretDecryptBy openRecorded value args).run []).2

theorem openings_eq (value : Value) (args : Arguments) :
    openings value args =
      match inspect value args with
      | .error _ => []
      | .ok found => [found] := by
  rw [openings, secretDecryptBy_eq]
  cases inspect value args with
  | error fault => rfl
  | ok found =>
      obtain ⟨secret, envelope⟩ := found
      simp only [StateT.run, bind, StateT.bind, openRecorded]
      cases envelope.open? secret <;> rfl

/-! ## What seals to an envelope -/

/-- The plaintext seals to the data of the envelope and the tag behind it, under the 32 bytes that
    PBKDF2 derives from the secret with the salt and the rounds of the envelope. -/
def SealsTo (secret plaintext : Bytes) (envelope : Envelope) : Prop :=
  ∃ key : Aes.Key, key.bytes = Pbkdf2.derive secret envelope.salt envelope.rounds 32 ∧
    let written := Gcm.sealed key envelope.iv [] plaintext
    written.1 ++ written.2 = envelope.data ++ envelope.tag

theorem eq_envelopeKey_iff {key : Aes.Key} {secret salt : Bytes} {rounds : Nat} :
    key = Envelope.key secret salt rounds ↔ key.bytes = Pbkdf2.derive secret salt rounds 32 := by
  constructor
  · rintro rfl
    rfl
  · intro hbytes
    obtain ⟨bytes, hsize⟩ := key
    obtain rfl : bytes = _ := hbytes
    rfl

theorem open?_eq_some_iff_sealsTo {secret plaintext : Bytes} {envelope : Envelope}
    (htag : envelope.tag.length = 16) :
    envelope.open? secret = some plaintext ↔ SealsTo secret plaintext envelope := by
  rw [Envelope.open?, Gcm.opened_eq_some_iff, SealsTo]
  simp only [← eq_envelopeKey_iff, exists_eq_left]
  constructor
  · intro hsealed
    simp only [hsealed]
  · intro hseals
    -- both tags have the same length, so both sides come apart at the same place
    obtain ⟨hdata, hmark⟩ := List.append_inj' hseals ((Gcm.length_tag ..).trans htag.symm)
    exact Prod.ext hdata hmark

/-- **What comes before the cipher.** Either a condition is the first that does not hold; then no
    envelope is opened, and the error is that of the condition, which is one of format if the
    condition is about the content of a map. Or all conditions hold; then just the envelope that the
    input describes is opened. It opens to each plaintext that seals to it, and if there is none, it
    is not authentic. -/
theorem secretDecrypt_checks_in_order (value : Value) (args : Arguments) :
    (∃ before check after, Check.all = before ++ check :: after ∧
      (∀ earlier ∈ before, earlier.Holds value args) ∧ ¬check.Holds value args ∧
      openings value args = [] ∧
      secretDecrypt value args = .error (check.fault value args) ∧
      (check ≠ .secret → check ≠ .map →
        ∃ reason, (check.fault value args).toError = .format "secret envelope" reason)) ∨
    ((∀ check ∈ Check.all, check.Holds value args) ∧
      ∃ secret envelope, Parameter.secret.bytes args = .ok secret ∧ ReadFrom value envelope ∧
        openings value args = [(secret, envelope)] ∧
        (∀ result, secretDecrypt value args = .ok result ↔
          ∃ plaintext, SealsTo secret plaintext envelope ∧ result = ofPayload plaintext) ∧
        ((¬∃ plaintext, SealsTo secret plaintext envelope) →
          secretDecrypt value args = .error .authentication)) := by
  rcases guarded_inspect.cases with ⟨before, check, after, hall, hbefore, hcheck, hinspect⟩ |
    ⟨hholds, ⟨secret, envelope⟩, hinspect, hsecret, henvelope⟩
  · refine Or.inl ⟨before, check, after, hall, hbefore, hcheck, ?_, ?_,
      check.exists_toError_fault_eq_format value args⟩
    · rw [openings_eq, hinspect]
    · rw [secretDecrypt_eq, hinspect]
  · obtain ⟨tag, htag, hlength⟩ := hholds (.length .tag 16) (by decide)
    obtain rfl := Option.some.inj (htag.symm.trans henvelope.tag)
    have hread : secretDecrypt value args =
        match envelope.open? secret with
        | some plaintext => .ok (ofPayload plaintext)
        | none => .error .authentication := by
      simp only [secretDecrypt_eq, hinspect]
    refine Or.inr ⟨hholds, secret, envelope, hsecret, henvelope, ?_, ?_⟩
    · rw [openings_eq, hinspect]
    · simp only [hread, ← open?_eq_some_iff_sealsTo hlength]
      cases envelope.open? secret with
      | none =>
          refine ⟨fun result => ⟨nofun, ?_⟩, fun _ => rfl⟩
          rintro ⟨plaintext, hopen, -⟩
          cases hopen
      | some plaintext =>
          refine ⟨fun result => ?_, fun hnone => absurd ⟨plaintext, rfl⟩ hnone⟩
          constructor
          · intro hresult
            exact ⟨plaintext, rfl, (Except.ok.inj hresult).symm⟩
          · rintro ⟨_, hopen, rfl⟩
            obtain rfl := Option.some.inj hopen
            rfl

end Transform

end Pipework
