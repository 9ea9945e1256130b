import Pipework.Specifier
import Pipework.Proofs.Data.Except
import Pipework.Proofs.Pipeline.Derive

set_option autoImplicit false

/-! # Values that are specifiers

A value is a specifier if it is a name, by itself or in a tuple with overrides (`Value.Spells`), and
otherwise there is one thing wrong with it (`Value.Misspells`). Every value is either
(`Value.spells_or_misspells`), so these are all the ways in which a value is read or refused
(`Specifier.ofValue_eq_ok_iff`, `Specifier.ofValue_eq_error_iff`). The name comes first
(`Value.leadingName?`). -/

namespace Pipework

/-! ## Names in values -/

namespace Value

/-- The name that a value is, by itself or in a tuple without overrides. -/
def plainName? : Value → Option String
  | .text name => some name
  | .list [.text name] => some name
  | .list [.text name, .null] => some name
  | .list [.text name, .null, .null] => some name
  | _ => none

/-- The name with which a value begins: its own, or that of its overrides. -/
def leadingName? : Value → Option String
  | .text name => some name
  | .list (.text name :: _) => some name
  | _ => none

/-! ## Spellings -/

/-- The positional arguments that the second item of a tuple stands for: none of its own, those that
    are listed, or a single one. -/
inductive SpellsPositional : Value → Option (List Value) → Prop
  | null : SpellsPositional .null none
  | list {items : List Value} : SpellsPositional (.list items) (some items)
  | single {value : Value} (h : value.kind ∉ [.null, .list, .map]) :
      SpellsPositional value (some [value])

/-- The named arguments that the third item of a tuple stands for. -/
inductive SpellsNamed : Value → Option (Dict Value) → Prop
  | null : SpellsNamed .null none
  | map {entries : Dict Value} : SpellsNamed (.map entries) (some entries)

/-- The value is a name, by itself or in a tuple, with what the tuple overrides. -/
inductive Spells : Value → String → Override → Prop
  | text {name : String} : Spells (.text name) name ⟨none, none⟩
  | one {name : String} : Spells (.list [.text name]) name ⟨none, none⟩
  | two {name : String} {second : Value} {positional : Option (List Value)}
      (hsecond : second.SpellsPositional positional) :
      Spells (.list [.text name, second]) name ⟨positional, none⟩
  | three {name : String} {second third : Value} {positional : Option (List Value)}
      {named : Option (Dict Value)} (hsecond : second.SpellsPositional positional)
      (hthird : third.SpellsNamed named) :
      Spells (.list [.text name, second, third]) name ⟨positional, named⟩

/-- What is wrong with a value that is no specifier. The length of a tuple matters more than its
    items, and an earlier item more than a later one. -/
inductive Misspells : Value → SpecifierError → Prop
  | shape {value : Value} (h : value.kind ∉ [.text, .list]) :
      Misspells value (.wrongShape value.kind)
  | arity {items : List Value} (h : items.length ∉ [1, 2, 3]) :
      Misspells (.list items) (.arity items.length)
  | name {first : Value} {rest : List Value} (hrest : rest.length ≤ 2)
      (hfirst : first.kind ≠ .text) : Misspells (.list (first :: rest)) (.nameNotText first.kind)
  | positional {name : String} {entries : Dict Value} {rest : List Value}
      (hrest : rest.length ≤ 1) :
      Misspells (.list (.text name :: .map entries :: rest)) .positionalMap
  | named {name : String} {second third : Value} {positional : Option (List Value)}
      (hsecond : second.SpellsPositional positional) (hthird : third.kind ∉ [.null, .map]) :
      Misspells (.list [.text name, second, third]) (.namedNotMap third.kind)

theorem exists_spellsPositional_or_map (value : Value) :
    (∃ positional, value.SpellsPositional positional) ∨ ∃ entries, value = .map entries := by
  cases value with
  | null => exact Or.inl ⟨_, .null⟩
  | list items => exact Or.inl ⟨_, .list⟩
  | map entries => exact Or.inr ⟨entries, rfl⟩
  | _ => exact Or.inl ⟨_, .single (by simp [kind])⟩

theorem exists_spellsNamed_or_kind (value : Value) :
    (∃ named, value.SpellsNamed named) ∨ value.kind ∉ [.null, .map] := by
  cases value with
  | null => exact Or.inl ⟨_, .null⟩
  | map entries => exact Or.inl ⟨_, .map⟩
  | _ => exact Or.inr (by simp [kind])

/-- A tuple of the right length that begins with a name. -/
theorem tuple_spells_or_misspells (name : String) {rest : List Value} (h : rest.length ≤ 2) :
    (∃ o, (list (.text name :: rest)).Spells name o) ∨
      ∃ error, (list (.text name :: rest)).Misspells error := by
  match rest with
  | [] => exact Or.inl ⟨_, .one⟩
  | second :: others =>
      obtain ⟨positional, hsecond⟩ | ⟨entries, rfl⟩ := second.exists_spellsPositional_or_map
      · match others with
        | [] => exact Or.inl ⟨_, .two hsecond⟩
        | [third] =>
            obtain ⟨named, hthird⟩ | hthird := third.exists_spellsNamed_or_kind
            · exact Or.inl ⟨_, .three hsecond hthird⟩
            · exact Or.inr ⟨_, .named hsecond hthird⟩
      · exact Or.inr ⟨_, .positional (Nat.le_of_succ_le_succ h)⟩

theorem spells_or_misspells (value : Value) :
    (∃ name o, value.Spells name o) ∨ ∃ error, value.Misspells error := by
  cases value with
  | text name => exact Or.inl ⟨name, _, .text⟩
  | list items =>
      by_cases hlength : items.length ∈ [1, 2, 3]
      · match items with
        | first :: rest =>
            have hrest : rest.length ≤ 2 := by
              simp only [List.length_cons, List.mem_cons, List.not_mem_nil, or_false] at hlength
              omega
            cases first with
            | text name => exact (tuple_spells_or_misspells name hrest).imp_left fun h => ⟨name, h⟩
            | _ => exact Or.inr ⟨_, .name hrest nofun⟩
      · exact Or.inr ⟨_, .arity hlength⟩
  | _ => exact Or.inr ⟨_, .shape (by simp [kind])⟩

end Value

/-! ## Reading -/

namespace Specifier

theorem ofOverrides_eq_named_iff {name other : String} {positional : Option (List Value)}
    {named : Option (Dict Value)} :
    ofOverrides name positional named = .named other ↔
      positional = none ∧ named = none ∧ name = other := by
  cases positional <;> cases named <;> simp [ofOverrides]

theorem positionalOverride_of_spells {value : Value} {positional : Option (List Value)}
    (h : value.SpellsPositional positional) : positionalOverride value = .ok positional := by
  cases h with
  | null => rfl
  | list => rfl
  | single h => cases value <;> simp [Value.kind] at h <;> rfl

theorem namedOverride_of_spells {value : Value} {named : Option (Dict Value)}
    (h : value.SpellsNamed named) : namedOverride value = .ok named := by
  cases h <;> rfl

theorem namedOverride_of_kind {value : Value} (h : value.kind ∉ [.null, .map]) :
    namedOverride value = .error (.namedNotMap value.kind) := by
  cases value <;> simp [Value.kind] at h <;> rfl

theorem ofParts_of_spells {name : String} {second third : Value} {positional : Option (List Value)}
    {named : Option (Dict Value)} (hsecond : second.SpellsPositional positional)
    (hthird : third.SpellsNamed named) :
    ofParts (.text name) second third = .ok (ofOverrides name positional named) := by
  rw [ofParts, positionalOverride_of_spells hsecond, namedOverride_of_spells hthird]
  rfl

theorem ofValue_of_spells {value : Value} {name : String} {o : Override}
    (h : value.Spells name o) : ofValue value = .ok (ofOverrides name o.positional o.named) := by
  cases h with
  | text => rfl
  | one => rfl
  | two hsecond => exact ofParts_of_spells hsecond .null
  | three hsecond hthird => exact ofParts_of_spells hsecond hthird

theorem ofValue_of_misspells {value : Value} {error : SpecifierError} (h : value.Misspells error) :
    ofValue value = .error error := by
  cases h with
  | shape h => cases value <;> simp [Value.kind] at h <;> rfl
  | @arity items h =>
      rw [ofValue]
      match items with
      | [] => rfl
      | [_] | [_, _] | [_, _, _] => simp at h
      | _ :: _ :: _ :: _ :: _ => rfl
  | @name first rest hrest hfirst =>
      have hparts : ∀ second third,
          ofParts first second third = .error (.nameNotText first.kind) := by
        intro second third
        cases first <;> simp [Value.kind] at hfirst <;> rfl
      match rest with
      | [] | [_] | [_, _] => exact hparts _ _
  | @positional name entries rest hrest =>
      match rest with
      | [] | [_] => rfl
  | named hsecond hthird =>
      rw [ofValue, ofTuple, ofParts, positionalOverride_of_spells hsecond,
        namedOverride_of_kind hthird]
      rfl

/-- **What is a specifier.** -/
theorem ofValue_eq_ok_iff {value : Value} {specifier : Specifier} :
    ofValue value = .ok specifier ↔
      ∃ name o, value.Spells name o ∧ specifier = ofOverrides name o.positional o.named := by
  constructor
  · intro h
    obtain ⟨name, o, hspells⟩ | ⟨error, hmisspells⟩ := value.spells_or_misspells
    · exact ⟨name, o, hspells, Except.ok.inj (h.symm.trans (ofValue_of_spells hspells))⟩
    · cases h.symm.trans (ofValue_of_misspells hmisspells)
  · rintro ⟨name, o, hspells, rfl⟩
    exact ofValue_of_spells hspells

/-- **What is no specifier**, and why. -/
theorem ofValue_eq_error_iff {value : Value} {error : SpecifierError} :
    ofValue value = .error error ↔ value.Misspells error := by
  constructor
  · intro h
    obtain ⟨name, o, hspells⟩ | ⟨other, hmisspells⟩ := value.spells_or_misspells
    · cases h.symm.trans (ofValue_of_spells hspells)
    · obtain rfl := Except.error.inj (h.symm.trans (ofValue_of_misspells hmisspells))
      exact hmisspells
  · exact ofValue_of_misspells

theorem exists_ofValue_iff {value : Value} :
    (∃ specifier, ofValue value = .ok specifier) ↔ ∃ name o, value.Spells name o := by
  simp only [ofValue_eq_ok_iff]
  constructor
  · rintro ⟨_, name, o, hspells, -⟩
    exact ⟨name, o, hspells⟩
  · rintro ⟨name, o, hspells⟩
    exact ⟨_, name, o, hspells, rfl⟩

/-! ## Names in specifiers -/

theorem ofValue_eq_named_iff {value : Value} {name : String} :
    ofValue value = .ok (.named name) ↔ value.plainName? = some name := by
  rw [ofValue_eq_ok_iff]
  constructor
  · rintro ⟨_, ⟨positional, named⟩, hspells, hname⟩
    obtain ⟨rfl, rfl, rfl⟩ := ofOverrides_eq_named_iff.1 hname.symm
    cases hspells with
    | text => rfl
    | one => rfl
    | two hsecond =>
        cases hsecond
        rfl
    | three hsecond hthird =>
        cases hsecond
        cases hthird
        rfl
  · intro h
    refine ⟨name, ⟨none, none⟩, ?_, rfl⟩
    unfold Value.plainName? at h
    split at h
    · exact Option.some.inj h ▸ .text
    · exact Option.some.inj h ▸ .one
    · exact Option.some.inj h ▸ .two .null
    · exact Option.some.inj h ▸ .three .null .null
    · cases h

/-- A specifier that is read from a value is a name, with or without overrides. -/
theorem named_or_overridden_of_ofValue {value : Value} {specifier : Specifier}
    (h : ofValue value = .ok specifier) :
    ∃ name, value.leadingName? = some name ∧
      (specifier = .named name ∨ ∃ args kwargs, specifier = .overridden name args kwargs) := by
  obtain ⟨name, ⟨positional, named⟩, hspells, rfl⟩ := ofValue_eq_ok_iff.1 h
  refine ⟨name, ?_, ?_⟩
  · cases hspells <;> rfl
  · cases positional <;> cases named <;> simp [ofOverrides]

end Specifier

end Pipework
