import Pipework.Proofs.Transform.Draws
import Pipework.Transform.Keys

set_option autoImplicit false

/-! # Keys are derived again from their records

A key is derived if the input is a text or a byte string and every parameter is absent or within its
bounds (`Derivable`), with a record of it or without. The record holds all that the key depends on
besides the input, so whoever binds what it says derives the key again, whatever was bound, left out
or drawn when the record was made (`deriveKeyRecord_derives_again`). -/

namespace Pipework.Transform

variable {source : RandomSource} {value : Value} {args : Arguments}

/-! ## Derivations -/

/-- The derivation is what an input and its arguments ask for, salts being drawn from `source`. -/
structure Derivation.Follows (d : Derivation) (source : RandomSource) (value : Value)
    (args : Arguments) : Prop where
  password : value.IsByteLike d.password
  length : Parameter.length.CountsAs args Value.IsNat defaultKeyLength d.length
  iterations : Parameter.iterations.CountsAs args Value.IsNat32 defaultIterations d.iterations
  salt : Parameter.salt.CountsAs args Value.IsByteLike (source.take saltLength) d.salt

theorem derivation_eq_ok_iff {d : Derivation} :
    derivation source value args = .ok d ↔ d.Follows source value args := by
  simp only [derivation, bind_eq_ok_iff, Parameter.nat?_eq_ok_iff, Parameter.nat32?_eq_ok_iff]
  constructor
  · rintro ⟨password, hpassword, length, hlength, iterations, hiterations, h⟩
    split at h
    · split at h
      · rw [bind_eq_ok_iff] at h
        obtain ⟨salt, hsalt, h⟩ := h
        rw [Parameter.bytes?_eq_ok_iff] at hsalt
        obtain rfl := pure_eq_ok_iff.1 h
        exact ⟨hpassword, ⟨length, hlength, rfl⟩, ⟨iterations, hiterations, rfl⟩, salt, hsalt, rfl⟩
      · cases h
    · cases h
  · obtain ⟨password, length, iterations, salt, hpos, hle, hiter⟩ := d
    rintro ⟨hpassword, ⟨l, hlength, rfl⟩, ⟨i, hiterations, rfl⟩, s, hsalt, rfl⟩
    refine ⟨password, hpassword, l, hlength, i, hiterations, ?_⟩
    rw [dif_pos ⟨hpos, hle⟩, dif_pos hiter, Parameter.bytes?_eq_ok_iff.2 hsalt]
    rfl

/-! ## What a key is derived from -/

/-- The input is a text or a byte string, and every parameter is left out or within its bounds. -/
structure Derivable (value : Value) (args : Arguments) : Prop where
  input : value.kind = .text ∨ value.kind = .bytes
  length : ∀ given ∈ Parameter.length.bound? args, given.IsIntWithin 1 1024
  iterations : ∀ given ∈ Parameter.iterations.bound? args, given.IsIntWithin 1 4294967295
  salt : ∀ given ∈ Parameter.salt.bound? args, given.kind = .text ∨ given.kind = .bytes

theorem exists_length_iff :
    (∃ n, Parameter.length.CountsAs args Value.IsNat defaultKeyLength n ∧
      0 < n ∧ n ≤ maxKeyLength) ↔
      ∀ given ∈ Parameter.length.bound? args, given.IsIntWithin 1 1024 := by
  have hdefault : 0 < defaultKeyLength ∧ defaultKeyLength ≤ maxKeyLength := by decide
  rw [Parameter.exists_countsAs_iff (P := fun n => 0 < n ∧ n ≤ maxKeyLength) hdefault]
  simp only [Value.exists_isNat_iff, maxKeyLength]

theorem exists_iterations_iff :
    (∃ n, Parameter.iterations.CountsAs args Value.IsNat32 defaultIterations n ∧ 0 < n) ↔
      ∀ given ∈ Parameter.iterations.bound? args, given.IsIntWithin 1 4294967295 := by
  have hdefault : 0 < defaultIterations := by decide
  rw [Parameter.exists_countsAs_iff hdefault]
  simp only [Value.exists_isNat32_iff]

theorem exists_salt_iff {drawn : Bytes} :
    (∃ salt, Parameter.salt.CountsAs args Value.IsByteLike drawn salt) ↔
      ∀ given ∈ Parameter.salt.bound? args, given.kind = .text ∨ given.kind = .bytes := by
  have hany : (∃ salt, Parameter.salt.CountsAs args Value.IsByteLike drawn salt ∧ True) ↔ _ :=
    Parameter.exists_countsAs_iff trivial
  simpa only [and_true, Value.exists_isByteLike_iff] using hany

theorem exists_follows_iff (source : RandomSource) :
    (∃ d : Derivation, d.Follows source value args) ↔ Derivable value args := by
  constructor
  · rintro ⟨d, h⟩
    exact {
      input := Value.exists_isByteLike_iff.1 ⟨_, h.password⟩
      length := exists_length_iff.1 ⟨_, h.length, d.length_pos, d.length_le⟩
      iterations := exists_iterations_iff.1 ⟨_, h.iterations, d.iterations_pos⟩
      salt := exists_salt_iff.1 ⟨_, h.salt⟩ }
  · intro h
    obtain ⟨password, hpassword⟩ := Value.exists_isByteLike_iff.2 h.input
    obtain ⟨length, hlength, hpos, hle⟩ := exists_length_iff.2 h.length
    obtain ⟨iterations, hiterations, hiter⟩ := exists_iterations_iff.2 h.iterations
    obtain ⟨salt, hsalt⟩ := exists_salt_iff.2 h.salt
    exact ⟨⟨password, length, iterations, salt, hpos, hle, hiter⟩, hpassword, hlength,
      hiterations, hsalt⟩

theorem exists_derivation_iff (source : RandomSource) :
    (∃ d, derivation source value args = .ok d) ↔ Derivable value args := by
  simp only [derivation_eq_ok_iff, exists_follows_iff]

/-! ## Keys and records -/

theorem deriveKey_eq_ok_iff {output : Value} :
    deriveKey source value args = .ok output ↔
      ∃ d : Derivation, d.Follows source value args ∧ .bytes d.key = output := by
  simp only [deriveKey, bind_eq_ok_iff, pure_eq_ok_iff, derivation_eq_ok_iff]

/-- The record of a derivation. -/
def Derivation.record (d : Derivation) : Value :=
  .map (Dict.ofList [("key", .bytes d.key), ("salt", .bytes d.salt),
    ("iterations", .int (Int64.ofNat d.iterations))])

theorem deriveKeyRecord_eq_ok_iff {output : Value} :
    deriveKeyRecord source value args = .ok output ↔
      ∃ d : Derivation, d.Follows source value args ∧ d.record = output := by
  simp only [deriveKeyRecord, bind_eq_ok_iff, pure_eq_ok_iff, derivation_eq_ok_iff,
    Derivation.record]

theorem deriveKey_eq_error_iff {fault : Fault} :
    deriveKey source value args = .error fault ↔ derivation source value args = .error fault :=
  bind_pure_eq_error_iff

theorem deriveKeyRecord_eq_error_iff {fault : Fault} :
    deriveKeyRecord source value args = .error fault ↔
      derivation source value args = .error fault :=
  bind_pure_eq_error_iff

/-! ## Deriving again -/

/-- The length of a key, and the number of iterations and the salt from its record, are bound. -/
structure Repeats (again : Arguments) (key salt : Bytes) (iterations : Int64) : Prop where
  length : Parameter.length.bound? again = some (.int (Int64.ofNat key.length))
  iterations : Parameter.iterations.bound? again = some (.int iterations)
  salt : Parameter.salt.bound? again = some (.bytes salt)

theorem Derivation.Follows.iterations_lt {d : Derivation} (h : d.Follows source value args) :
    d.iterations < 0x100000000 := by
  have hdefault : defaultIterations < 0x100000000 := by decide
  exact h.iterations.of_forall hdefault fun _ _ htakes => htakes.2

/-- What is bound from the record asks for the same derivation. -/
theorem Derivation.Follows.of_repeats {d : Derivation} (h : d.Follows source value args)
    (other : RandomSource) {again : Arguments}
    (hagain : Repeats again d.key d.salt (Int64.ofNat d.iterations)) :
    d.Follows other value again where
  password := h.password
  length := by
    have hlength : d.key.length = d.length := Pbkdf2.length_derive ..
    have hle : d.length ≤ 1024 := d.length_le
    refine Parameter.countsAs_of_bound? hagain.length ⟨_, rfl, ?_⟩
    rw [hlength]
    exact Int64.toInt_ofNat_of_lt (by omega)
  iterations := by
    have hlt := h.iterations_lt
    refine Parameter.countsAs_of_bound? hagain.iterations ⟨⟨_, rfl, ?_⟩, hlt⟩
    exact Int64.toInt_ofNat_of_lt (by omega)
  salt := Parameter.countsAs_of_bound? hagain.salt rfl

/-- **A record is enough to derive its key again.** Keys and records are derived from the same
    inputs and arguments, whatever is drawn, and otherwise the same fault is told. A record holds
    the key, the salt and the number of iterations, however they were found. If the last two are
    bound beside the length of the key, by name or by position, the key that is derived from the
    input is that of the record. -/
theorem deriveKeyRecord_derives_again (value : Value) (args : Arguments) :
    (∀ source, (∃ key, deriveKey source value args = .ok key) ↔ Derivable value args) ∧
    (∀ source, (∃ record, deriveKeyRecord source value args = .ok record) ↔
      Derivable value args) ∧
    (∀ first second fault, deriveKey first value args = .error fault ↔
      deriveKeyRecord second value args = .error fault) ∧
    (∀ source record, deriveKeyRecord source value args = .ok record →
      ∃ key salt iterations,
        record = .map (Dict.ofList [("key", .bytes key), ("salt", .bytes salt),
          ("iterations", .int iterations)]) ∧
        deriveKey source value args = .ok (.bytes key) ∧
        ∀ other again, Repeats again key salt iterations →
          deriveKey other value again = .ok (.bytes key)) := by
  refine ⟨?_, ?_, ?_, ?_⟩
  · intro source
    rw [← exists_derivation_iff source]
    exact exists_bind_pure_eq_ok_iff
  · intro source
    rw [← exists_derivation_iff source]
    exact exists_bind_pure_eq_ok_iff
  · intro first second fault
    rw [deriveKey_eq_error_iff, deriveKeyRecord_eq_error_iff]
    exact (derivation_alike first second value args).eq_error_iff
  · intro source record hrecord
    obtain ⟨d, h, rfl⟩ := deriveKeyRecord_eq_ok_iff.1 hrecord
    refine ⟨d.key, d.salt, Int64.ofNat d.iterations, rfl, deriveKey_eq_ok_iff.2 ⟨d, h, rfl⟩, ?_⟩
    intro other again hagain
    exact deriveKey_eq_ok_iff.2 ⟨d, h.of_repeats other hagain, rfl⟩

/-- The number of iterations is masked by null and the salt is drawn; both are bound the second time,
    one by position and the other by name. -/
theorem deriveKeyRecord_derives_again_drawn :
    ∃ key salt, salt.length = 16 ∧
      deriveKeyRecord ⟨UInt8.ofNat⟩ (.text "pw")
          ⟨[.int 16, .int 5], Dict.ofList [("iterations", .null)]⟩ =
        .ok (.map (Dict.ofList [("key", .bytes key), ("salt", .bytes salt),
          ("iterations", .int 100000)])) ∧
      deriveKey ⟨fun _ => 7⟩ (.text "pw")
          ⟨[.int 16, .int 100000], Dict.ofList [("salt", .bytes salt)]⟩ = .ok (.bytes key) := by
  let source : RandomSource := ⟨UInt8.ofNat⟩
  let d : Derivation :=
    { password := Utf8.encode "pw"
      length := 16
      iterations := 100000
      salt := source.take saltLength
      length_pos := by decide
      length_le := by decide
      iterations_pos := by decide }
  have hrecord : deriveKeyRecord source (.text "pw")
      ⟨[.int 16, .int 5], Dict.ofList [("iterations", .null)]⟩ = .ok d.record := rfl
  obtain ⟨key, salt, iterations, hfields, -, hagain⟩ :=
    (deriveKeyRecord_derives_again _ _).2.2.2 source d.record hrecord
  have hget := fun name => congrArg (Entries.get? · name) (Value.map.inj hfields)
  obtain rfl : d.key = key := Value.bytes.inj (Option.some.inj (hget "key"))
  obtain rfl : d.salt = salt := Value.bytes.inj (Option.some.inj (hget "salt"))
  obtain rfl : 100000 = iterations := Value.int.inj (Option.some.inj (hget "iterations"))
  have hlength : d.key.length = 16 := Pbkdf2.length_derive ..
  refine ⟨d.key, d.salt, source.length_take saltLength, hrecord, hagain _ _ ⟨?_, rfl, rfl⟩⟩
  rw [hlength]
  rfl

end Pipework.Transform
