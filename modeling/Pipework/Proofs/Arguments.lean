import Pipework.Proofs.Data.Dict
import Pipework.Transform.Parameter
import Pipework.Value.Render

set_option autoImplicit false

/-! # Bound arguments

What binding an argument by name does to the lookups of transforms: the name that is bound gives
the value wherever the argument may stand among the positional ones, and no other lookup changes.
What a parameter that may be left out counts as is said without its reader (`Parameter.CountsAs`):
what the value bound to it is taken for, or a default if none is bound. -/

namespace Pipework

namespace Value

theorem isNull_eq_false_iff {value : Value} : value.isNull = false ↔ value ≠ .null := by
  cases value <;> simp [isNull]

/-- The value is the number `n`. -/
def IsNat (value : Value) (n : Nat) : Prop := ∃ i : Int64, value = .int i ∧ i.toInt = n

/-- The value is the number `n`, which takes 32 bits at most. -/
def IsNat32 (value : Value) (n : Nat) : Prop := value.IsNat n ∧ n < 0x100000000

/-- The value is an integer between two bounds. -/
def IsIntWithin (least most : Nat) (value : Value) : Prop :=
  ∃ i : Int64, value = .int i ∧ least ≤ i.toInt ∧ i.toInt ≤ most

/-- The value is a byte string or a text, and `bytes` are its bytes. -/
def IsByteLike (value : Value) (bytes : Bytes) : Prop := value.expectByteLike = .ok bytes

theorem isNat_int_iff {i : Int64} {n : Nat} : (int i).IsNat n ↔ 0 ≤ i.toInt ∧ i.toInt.toNat = n := by
  simp only [IsNat, int.injEq, exists_eq_left']
  omega

theorem isNat32_int_iff {i : Int64} {n : Nat} :
    (int i).IsNat32 n ↔ (0 ≤ i.toInt ∧ i.toInt < 0x100000000) ∧ i.toInt.toNat = n := by
  simp only [IsNat32, isNat_int_iff]
  omega

theorem exists_isNat_iff {value : Value} {most : Nat} :
    (∃ n, value.IsNat n ∧ 0 < n ∧ n ≤ most) ↔ value.IsIntWithin 1 most := by
  constructor
  · rintro ⟨n, ⟨i, rfl, hi⟩, hpos, hle⟩
    exact ⟨i, rfl, by omega, by omega⟩
  · rintro ⟨i, rfl, hleast, hmost⟩
    exact ⟨i.toInt.toNat, isNat_int_iff.2 ⟨by omega, rfl⟩, by omega, by omega⟩

theorem exists_isNat32_iff {value : Value} :
    (∃ n, value.IsNat32 n ∧ 0 < n) ↔ value.IsIntWithin 1 0xFFFFFFFF := by
  rw [← exists_isNat_iff]
  constructor
  · rintro ⟨n, ⟨hn, hlt⟩, hpos⟩
    exact ⟨n, hn, hpos, by omega⟩
  · rintro ⟨n, hn, hpos, hle⟩
    exact ⟨n, ⟨hn, by omega⟩, hpos⟩

theorem exists_isByteLike_iff {value : Value} :
    (∃ bytes, value.IsByteLike bytes) ↔ value.kind = .text ∨ value.kind = .bytes := by
  cases value <;> simp [IsByteLike, expectByteLike, kind]

end Value

namespace Arguments

theorem get?_withNamed_self (args : Arguments) (index : Nat) (name : String) {value : Value}
    (h : value.isNull = false) : (args.withNamed name value).get? index name = some value := by
  simp only [get?, withNamed, Dict.get?_insert, if_pos, Option.some_or, Option.filter, h,
    Bool.not_false]

theorem get?_withNamed_of_ne (args : Arguments) (index : Nat) {name other : String}
    (h : name ≠ other) (value : Value) :
    (args.withNamed name value).get? index other = args.get? index other := by
  simp only [get?, withNamed, Dict.get?_insert, if_neg h]

/-! ## Names before positions -/

/-- How an argument is found: by its name if the name is bound, where null hides what stands at its
    position, and otherwise at its position, unless it is null there. -/
structure Finds (args : Arguments) (index : Nat) (name : String) : Prop where
  of_named : ∀ value, args.named.get? name = some value → value ≠ .null →
    args.get? index name = some value
  of_null : args.named.get? name = some .null → args.get? index name = none
  of_absent : args.named.get? name = none → ∀ value, args.get? index name = some value ↔
    args.positional[index]? = some value ∧ value ≠ .null

theorem finds (args : Arguments) (index : Nat) (name : String) : args.Finds index name where
  of_named value hnamed hvalue := by
    rw [get?, hnamed, Option.some_or, Option.filter_eq_some_iff, Bool.not_eq_true',
      Value.isNull_eq_false_iff]
    exact ⟨rfl, hvalue⟩
  of_null hnamed := by
    rw [get?, hnamed]
    rfl
  of_absent hnamed value := by
    rw [get?, hnamed, Option.none_or, Option.filter_eq_some_iff, Bool.not_eq_true',
      Value.isNull_eq_false_iff]

end Arguments

namespace Parameter

/-! ## What is bound is read -/

/-- The value that is bound to a parameter, by its name or at its position. -/
def bound? (parameter : Parameter) (args : Arguments) : Option Value :=
  args.get? parameter.index parameter.name

theorem text?_of_bound? {parameter : Parameter} {args : Arguments} {text : Option String}
    (h : parameter.bound? args = text.map .text) : parameter.text? args = .ok text := by
  unfold bound? at h
  unfold text? Arguments.text?
  rw [h]
  cases text <;> rfl

theorem nat?_eq_ok_iff {parameter : Parameter} {args : Arguments} {number : Option Nat} :
    parameter.nat? args = .ok number ↔
      Option.Rel Value.IsNat (parameter.bound? args) number := by
  unfold bound? nat? Arguments.nat? blame
  rw [mapError_eq_ok_iff]
  cases args.get? parameter.index parameter.name with
  | none => cases number <;> simp
  | some given =>
      cases given with
      | int i =>
          by_cases hsign : i.toInt < 0 <;> cases number <;>
            simp [hsign, Value.isNat_int_iff, Int.not_lt.1]
      | _ => cases number <;> simp [Value.IsNat]

theorem nat32?_eq_ok_iff {parameter : Parameter} {args : Arguments} {number : Option Nat} :
    parameter.nat32? args = .ok number ↔
      Option.Rel Value.IsNat32 (parameter.bound? args) number := by
  unfold bound? nat32? Arguments.nat32? blame
  rw [mapError_eq_ok_iff]
  cases args.get? parameter.index parameter.name with
  | none => cases number <;> simp
  | some given =>
      cases given with
      | int i =>
          by_cases hrange : 0 ≤ i.toInt ∧ i.toInt < 0x100000000 <;> cases number <;>
            simp [hrange, Value.isNat32_int_iff]
      | _ => cases number <;> simp [Value.IsNat32, Value.IsNat]

theorem nat?_of_bound? {parameter : Parameter} {args : Arguments} {number : Option Int64}
    (h : parameter.bound? args = number.map .int) (hsign : ∀ n ∈ number, 0 ≤ n.toInt) :
    parameter.nat? args = .ok (number.map (·.toInt.toNat)) := by
  rw [nat?_eq_ok_iff, h]
  cases number with
  | none => exact .none
  | some n => exact .some (Value.isNat_int_iff.2 ⟨hsign n rfl, rfl⟩)

theorem bool?_of_bound? {parameter : Parameter} {args : Arguments} {flag : Option Bool}
    (h : parameter.bound? args = flag.map .bool) : parameter.bool? args = .ok flag := by
  unfold bound? at h
  unfold bool? Arguments.bool?
  rw [h]
  cases flag <;> rfl

/-- Bytes that are needed are those of a byte string or a text. -/
theorem bytes_eq_match_bound? (parameter : Parameter) (args : Arguments) :
    parameter.bytes args =
      match parameter.bound? args with
      | none => .error (.argument parameter .missing)
      | some (.bytes b) => .ok b
      | some (.text s) => .ok (Utf8.encode s)
      | some other => .error (.argument parameter (.notBytes other.kind)) := by
  unfold bound? bytes Arguments.bytes Arguments.bytes?
  cases args.get? parameter.index parameter.name with
  | none => rfl
  | some given => cases given <;> rfl

theorem bytes?_eq_ok_iff {parameter : Parameter} {args : Arguments} {bytes : Option Bytes} :
    parameter.bytes? args = .ok bytes ↔
      Option.Rel Value.IsByteLike (parameter.bound? args) bytes := by
  unfold bound? bytes? Arguments.bytes? blame
  rw [mapError_eq_ok_iff]
  cases args.get? parameter.index parameter.name with
  | none => cases bytes <;> simp
  | some given => cases given <;> cases bytes <;> simp [Value.IsByteLike, Value.expectByteLike]

/-- No bytes are read exactly if nothing is bound. -/
theorem bytes?_eq_ok_none_iff {parameter : Parameter} {args : Arguments} :
    parameter.bytes? args = .ok none ↔ parameter.bound? args = none := by
  rw [bytes?_eq_ok_iff]
  cases parameter.bound? args <;> simp

/-! ## Defaults -/

section CountsAs

variable {α : Type} {parameter : Parameter} {args : Arguments} {Takes : Value → α → Prop}
  {default : α}

/-- What a parameter counts as: what the value that is bound to it is taken for, or `default` if
    none is bound. -/
def CountsAs (parameter : Parameter) (args : Arguments) (Takes : Value → α → Prop)
    (default a : α) : Prop :=
  ∃ given, Option.Rel Takes (parameter.bound? args) given ∧ given.getD default = a

theorem countsAs_of_bound? {value : Value} {a : α} (h : parameter.bound? args = some value)
    (htakes : Takes value a) : parameter.CountsAs args Takes default a :=
  ⟨some a, h ▸ .some htakes, rfl⟩

theorem CountsAs.of_forall {P : α → Prop} {a : α} (h : parameter.CountsAs args Takes default a)
    (hdefault : P default) (htakes : ∀ value a, Takes value a → P a) : P a := by
  obtain ⟨given, hgiven, rfl⟩ := h
  generalize parameter.bound? args = bound at hgiven
  cases hgiven with
  | none => exact hdefault
  | some hgiven => exact htakes _ _ hgiven

/-- A default that is fine leaves only the value that is bound to be looked at, if there is one. -/
theorem exists_countsAs_iff {P : α → Prop} (hdefault : P default) :
    (∃ a, parameter.CountsAs args Takes default a ∧ P a) ↔
      ∀ value ∈ parameter.bound? args, ∃ a, Takes value a ∧ P a := by
  constructor
  · rintro ⟨a, ⟨given, hgiven, rfl⟩, ha⟩ value hvalue
    rw [hvalue] at hgiven
    cases hgiven with
    | some htakes => exact ⟨_, htakes, ha⟩
  · intro h
    cases hbound : parameter.bound? args with
    | none => exact ⟨default, ⟨none, hbound ▸ .none, rfl⟩, hdefault⟩
    | some value =>
        obtain ⟨a, htakes, ha⟩ := h value hbound
        exact ⟨a, countsAs_of_bound? hbound htakes, ha⟩

end CountsAs

/-! ## Binding by name -/

theorem bytes?_withNamed_self (parameter : Parameter) (args : Arguments) (bytes : Bytes) :
    parameter.bytes? (args.withNamed parameter.name (.bytes bytes)) = .ok (some bytes) := by
  unfold bytes? Arguments.bytes?
  rw [Arguments.get?_withNamed_self args parameter.index parameter.name rfl]
  rfl

theorem bytes?_withNamed_of_ne {parameter other : Parameter} (h : other.name ≠ parameter.name)
    (args : Arguments) (value : Value) :
    parameter.bytes? (args.withNamed other.name value) = parameter.bytes? args := by
  simp only [bytes?, Arguments.bytes?, Arguments.get?_withNamed_of_ne args _ h]

theorem bytes_withNamed_of_ne {parameter other : Parameter} (h : other.name ≠ parameter.name)
    (args : Arguments) (value : Value) :
    parameter.bytes (args.withNamed other.name value) = parameter.bytes args := by
  simp only [bytes, Arguments.bytes, Arguments.bytes?, Arguments.get?_withNamed_of_ne args _ h]

end Parameter

end Pipework
