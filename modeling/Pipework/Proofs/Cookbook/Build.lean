import Pipework.Cookbook.Basic
import Pipework.Proofs.Registry
import Pipework.Proofs.Specifier

set_option autoImplicit false

/-! # Pipelines from values

A list of values is read as a whole before any name is looked up, so what comes of building a
pipeline is settled in two passes (`Cookbook.Builds`): a value that is no specifier is refused
wherever it stands, and only if there is none, a name that is not registered. What is left stands
for one stage each (`Cookbook.Provides`). -/

namespace Pipework

/-! ## Stages of specifiers -/

namespace Specifier

variable {steps : Registry (Step Transform)} {name : String} {o : Override}

theorem stage_ofOverrides :
    (ofOverrides name o.positional o.named).stage steps =
      steps.get name >>= fun template => pure (.step (template.overridden o)) := by
  obtain ⟨positional, named⟩ := o
  cases positional <;> cases named <;> rfl

theorem stage_ofOverrides_eq_ok_iff {stage : Stage Transform} :
    (ofOverrides name o.positional o.named).stage steps = .ok stage ↔
      ∃ template step, steps.get? name = some template ∧ step.name = template.name ∧
        step.DerivesFrom template [o] ∧ stage = .step step := by
  simp only [stage_ofOverrides, bind_eq_ok_iff, pure_eq_ok_iff, Registry.get_eq_ok_iff,
    eq_comm (b := stage), Step.stage_eq_step_overridden_iff, exists_and_left]

theorem stage_ofOverrides_eq_error_iff {error : NotFound} :
    (ofOverrides name o.positional o.named).stage steps = .error error ↔
      steps.get? name = none ∧ error = ⟨.step, name⟩ := by
  rw [stage_ofOverrides, bind_eq_error_iff]
  constructor
  · rintro (h | ⟨_, -, h⟩)
    · refine ⟨?_, Registry.eq_of_get_eq_error h⟩
      rw [Registry.get?_eq_none_iff, ← Registry.exists_get_iff]
      rintro ⟨template, htemplate⟩
      cases h.symm.trans htemplate
    · cases h
  · rintro ⟨h, rfl⟩
    left
    rw [Registry.get, h]
    rfl

end Specifier

namespace Cookbook

variable {cookbook : Cookbook} {values : List Value} {specifiers : List Specifier}
  {stages : List (Stage Transform)}

/-- The stage is the registered step that the value names, with what the value overrides: the step
    keeps its name, and its arguments are derived with one override. -/
def Provides (cookbook : Cookbook) (value : Value) (stage : Stage Transform) : Prop :=
  ∃ name o template step, value.Spells name o ∧ cookbook.steps.get? name = some template ∧
    step.name = template.name ∧ step.DerivesFrom template [o] ∧ stage = .step step

/-- What comes of building a pipeline from values. The first one that is no specifier is refused at
    its place, whatever names there are; if all of them are, the first name that is not registered
    is; and otherwise there is a stage for each value. -/
inductive Builds (cookbook : Cookbook) (values : List Value) :
    Except CookbookError (Pipeline Transform) → Prop
  | misspelt {before after : List Value} {value : Value} {error : SpecifierError}
      (hvalues : values = before ++ value :: after)
      (hbefore : ∀ earlier ∈ before, ∃ name o, earlier.Spells name o)
      (hvalue : value.Misspells error) :
      Builds cookbook values (.error (.config (.specifier (some before.length) error)))
  | unknown {before after : List Value} {value : Value} {name : String} {o : Override}
      (hspelt : ∀ other ∈ values, ∃ name o, other.Spells name o)
      (hvalues : values = before ++ value :: after)
      (hbefore : ∀ earlier ∈ before, ∃ stage, cookbook.Provides earlier stage)
      (hvalue : value.Spells name o) (hname : cookbook.steps.get? name = none) :
      Builds cookbook values (.error (.notFound ⟨.step, name⟩))
  | built {stages : List (Stage Transform)}
      (hstages : List.Forall₂ cookbook.Provides values stages) :
      Builds cookbook values (.ok ⟨none, stages⟩)

/-! ## Reading -/

theorem specifiersOf_eq_ok_iff {position : Nat} :
    specifiersOf position values = .ok specifiers ↔
      List.Forall₂ (fun value specifier => Specifier.ofValue value = .ok specifier) values
        specifiers := by
  induction values generalizing position specifiers with
  | nil =>
      rw [specifiersOf, List.forall₂_nil_left_iff]
      exact ⟨fun h => (Except.ok.inj h).symm, congrArg Except.ok ∘ Eq.symm⟩
  | cons value rest ih =>
      simp only [specifiersOf, bind_eq_ok_iff, mapError_eq_ok_iff, pure_eq_ok_iff,
        List.forall₂_cons_left_iff, ih]
      constructor
      · rintro ⟨specifier, hvalue, specifiers, hrest, rfl⟩
        exact ⟨specifier, specifiers, hvalue, hrest, rfl⟩
      · rintro ⟨specifier, specifiers, hvalue, hrest, rfl⟩
        exact ⟨specifier, hvalue, specifiers, hrest, rfl⟩

/-- The first value that is no specifier decides, and its place is counted from the first one. -/
theorem specifiersOf_eq_error_iff {position : Nat} {error : ConfigError} :
    specifiersOf position values = .error error ↔
      ∃ before value after reason, values = before ++ value :: after ∧
        (∀ earlier ∈ before, ∃ specifier, Specifier.ofValue earlier = .ok specifier) ∧
        Specifier.ofValue value = .error reason ∧
        error = .specifier (some (position + before.length)) reason := by
  induction values generalizing position with
  | nil => exact ⟨nofun, fun ⟨before, _, _, _, h, _⟩ => by cases before <;> cases h⟩
  | cons first rest ih =>
      simp only [specifiersOf, bind_eq_error_iff, mapError_eq_error_iff, mapError_eq_ok_iff, ih]
      constructor
      · rintro (⟨reason, hfirst, rfl⟩ | ⟨specifier, hfirst, hrest | ⟨_, _, h⟩⟩)
        · exact ⟨[], first, rest, reason, rfl, nofun, hfirst, rfl⟩
        · obtain ⟨before, value, after, reason, rfl, hbefore, hvalue, rfl⟩ := hrest
          refine ⟨first :: before, value, after, reason, rfl,
            List.forall_mem_cons.2 ⟨⟨specifier, hfirst⟩, hbefore⟩, hvalue, ?_⟩
          rw [List.length_cons, Nat.add_assoc, Nat.add_comm 1]
        · cases h
      · rintro ⟨_ | ⟨earlier, before⟩, value, after, reason, hvalues, hbefore, hvalue, rfl⟩
        · obtain ⟨rfl, rfl⟩ := List.cons.inj hvalues
          exact Or.inl ⟨reason, hvalue, rfl⟩
        · obtain ⟨rfl, rfl⟩ := List.cons.inj hvalues
          obtain ⟨⟨specifier, hfirst⟩, hbefore⟩ := List.forall_mem_cons.1 hbefore
          refine Or.inr ⟨specifier, hfirst, Or.inl
            ⟨before, value, after, reason, rfl, hbefore, hvalue, ?_⟩⟩
          rw [List.length_cons, Nat.add_assoc, Nat.add_comm 1]

/-! ## Finding -/

theorem provides_iff_of_ofValue {value : Value} {specifier : Specifier} {stage : Stage Transform}
    (h : Specifier.ofValue value = .ok specifier) :
    cookbook.Provides value stage ↔ specifier.stage cookbook.steps = .ok stage := by
  constructor
  · rintro ⟨name, o, template, step, hspells, hstep⟩
    obtain rfl := Except.ok.inj (h.symm.trans (Specifier.ofValue_of_spells hspells))
    exact Specifier.stage_ofOverrides_eq_ok_iff.2 ⟨template, step, hstep⟩
  · intro hstage
    obtain ⟨name, o, hspells, rfl⟩ := Specifier.ofValue_eq_ok_iff.1 h
    obtain ⟨template, step, hstep⟩ := Specifier.stage_ofOverrides_eq_ok_iff.1 hstage
    exact ⟨name, o, template, step, hspells, hstep⟩

section Read

variable (hread : List.Forall₂ (fun value specifier => Specifier.ofValue value = .ok specifier)
  values specifiers)
include hread

theorem mapM_stage_eq_ok_iff :
    specifiers.mapM (Specifier.stage cookbook.steps) = .ok stages ↔
      List.Forall₂ cookbook.Provides values stages :=
  mapM_eq_ok_iff_of_forall₂ hread fun _ _ h _ => provides_iff_of_ofValue h

/-- The first name that is not registered decides. -/
theorem mapM_stage_eq_error_iff {error : NotFound} :
    specifiers.mapM (Specifier.stage cookbook.steps) = .error error ↔
      ∃ before value after name o, values = before ++ value :: after ∧
        (∀ earlier ∈ before, ∃ stage, cookbook.Provides earlier stage) ∧ value.Spells name o ∧
        cookbook.steps.get? name = none ∧ error = ⟨.step, name⟩ := by
  rw [mapM_eq_error_iff_of_forall₂ hread fun _ _ h _ => provides_iff_of_ofValue h]
  constructor
  · rintro ⟨before, value, after, _, hvalues, hbefore, hvalue, hstage⟩
    obtain ⟨name, o, hspells, rfl⟩ := Specifier.ofValue_eq_ok_iff.1 hvalue
    obtain ⟨hname, rfl⟩ := Specifier.stage_ofOverrides_eq_error_iff.1 hstage
    exact ⟨before, value, after, name, o, hvalues, hbefore, hspells, hname, rfl⟩
  · rintro ⟨before, value, after, name, o, hvalues, hbefore, hspells, hname, rfl⟩
    exact ⟨before, value, after, _, hvalues, hbefore, Specifier.ofValue_of_spells hspells,
      Specifier.stage_ofOverrides_eq_error_iff.2 ⟨hname, rfl⟩⟩

end Read

/-! ## Building -/

theorem buildFromValues_of_error {error : ConfigError} (h : specifiersOf 0 values = .error error) :
    cookbook.buildFromValues values = .error (.config error) := by
  rw [buildFromValues, h]
  rfl

theorem buildFromValues_of_ok (h : specifiersOf 0 values = .ok specifiers) :
    cookbook.buildFromValues values =
      (specifiers.mapM (Specifier.stage cookbook.steps) >>= fun stages =>
        pure ⟨none, stages⟩).mapError .notFound := by
  rw [buildFromValues, h]
  rfl

theorem builds_buildFromValues (cookbook : Cookbook) (values : List Value) :
    cookbook.Builds values (cookbook.buildFromValues values) := by
  cases hspecifiers : specifiersOf 0 values with
  | error error =>
      obtain ⟨before, value, after, reason, hvalues, hbefore, hvalue, rfl⟩ :=
        specifiersOf_eq_error_iff.1 hspecifiers
      rw [buildFromValues_of_error hspecifiers, Nat.zero_add]
      exact .misspelt hvalues
        (fun earlier hmem => Specifier.exists_ofValue_iff.1 (hbefore earlier hmem))
        (Specifier.ofValue_eq_error_iff.1 hvalue)
  | ok specifiers =>
      have hread := specifiersOf_eq_ok_iff.1 hspecifiers
      rw [buildFromValues_of_ok hspecifiers]
      cases hstages : specifiers.mapM (Specifier.stage cookbook.steps) with
      | ok stages => exact .built ((mapM_stage_eq_ok_iff hread).1 hstages)
      | error error =>
          obtain ⟨before, value, after, name, o, hvalues, hbefore, hvalue, hname, rfl⟩ :=
            (mapM_stage_eq_error_iff hread).1 hstages
          refine .unknown (fun other hmem => ?_) hvalues hbefore hvalue hname
          exact Specifier.exists_ofValue_iff.1 (exists_forall₂_iff.1 ⟨_, hread⟩ other hmem)

theorem Builds.buildFromValues_eq {result : Except CookbookError (Pipeline Transform)}
    (h : cookbook.Builds values result) : cookbook.buildFromValues values = result := by
  cases h with
  | misspelt hvalues hbefore hvalue =>
      rw [buildFromValues_of_error (specifiersOf_eq_error_iff.2 ⟨_, _, _, _, hvalues, ?_,
        Specifier.ofValue_of_misspells hvalue, rfl⟩), Nat.zero_add]
      exact fun earlier hmem => Specifier.exists_ofValue_iff.2 (hbefore earlier hmem)
  | unknown hspelt hvalues hbefore hvalue hname =>
      obtain ⟨specifiers, hread⟩ := exists_forall₂_iff.2 fun other hmem =>
        Specifier.exists_ofValue_iff.2 (hspelt other hmem)
      rw [buildFromValues_of_ok (specifiersOf_eq_ok_iff.2 hread), (mapM_stage_eq_error_iff hread).2
        ⟨_, _, _, _, _, hvalues, hbefore, hvalue, hname, rfl⟩]
      rfl
  | built hstages =>
      have hspelt : ∀ value ∈ values, ∃ specifier, Specifier.ofValue value = .ok specifier := by
        intro value hmem
        obtain ⟨_, name, o, _, _, hspells, -⟩ := exists_forall₂_iff.1 ⟨_, hstages⟩ value hmem
        exact ⟨_, Specifier.ofValue_of_spells hspells⟩
      obtain ⟨specifiers, hread⟩ := exists_forall₂_iff.2 hspelt
      rw [buildFromValues_of_ok (specifiersOf_eq_ok_iff.2 hread),
        (mapM_stage_eq_ok_iff hread).2 hstages]
      rfl

/-- **Pipelines from values.** For any values and any registered steps, exactly that comes of
    building a pipeline which `Builds` says: if a value is no specifier, the first one of these is
    refused with its place, whatever names come before or after it; if all are, the first name that
    is not registered is refused; and otherwise the pipeline has one stage for each value, in order,
    which is the registered step with what the value overrides. A value is a specifier exactly if it
    is a name or a tuple of a name and overrides (`Value.Spells`), and is refused for the first
    thing that is wrong with it (`Value.Misspells`). -/
theorem buildFromValues_eq_iff_builds (cookbook : Cookbook) (values : List Value) :
    (∀ result, cookbook.buildFromValues values = result ↔ cookbook.Builds values result) ∧
    (∀ value specifier, Specifier.ofValue value = .ok specifier ↔
      ∃ name o, value.Spells name o ∧
        specifier = Specifier.ofOverrides name o.positional o.named) ∧
    ∀ value error, Specifier.ofValue value = .error error ↔ value.Misspells error := by
  refine ⟨fun result => ⟨?_, Builds.buildFromValues_eq⟩,
    fun _ _ => Specifier.ofValue_eq_ok_iff, fun _ _ => Specifier.ofValue_eq_error_iff⟩
  rintro rfl
  exact builds_buildFromValues cookbook values

/-- The number stands behind a name that nothing has, and is what is refused. -/
example : empty.buildFromValues [.text "missing", .int 1] =
    .error (.config (.specifier (some 1) (.wrongShape .int))) := rfl

end Cookbook

end Pipework
