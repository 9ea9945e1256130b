import Pipework.Pipeline.Basic
import Pipework.Proofs.Data.Dict
import Mathlib.Data.List.Induction

set_option autoImplicit false

/-! # Steps derived from steps

A step with overrides is a step again, so derivations form chains. One more override at the end of a
chain takes precedence over all that came before it, for the positional arguments as a whole and for
the named ones key by key (`Step.DerivesFrom.overridden`), so of all overrides that supply something
the last one counts (`Step.DerivesFrom.derive`). What two overrides do, one can do
(`Override.andThen`), and an override does nothing when it is repeated. -/

namespace Pipework

/-! ## Overrides -/

/-- What a derivation changes: the positional arguments or not, and any named ones. -/
structure Override where
  positional : Option (List Value)
  named : Option (Dict Value)

namespace Override

/-- The value that an override binds to `name`. -/
def bound? (o : Override) (name : String) : Option Value := o.named.bind (·.get? name)

/-- Two overrides in one, of which the second takes precedence. -/
def andThen (first second : Override) : Override :=
  ⟨second.positional.or first.positional, first.named.merge Dict.override second.named⟩

theorem andThen_assoc (first second third : Override) :
    (first.andThen second).andThen third = first.andThen (second.andThen third) := by
  have hnamed : ∀ a b c : Option (Dict Value),
      (a.merge Dict.override b).merge Dict.override c =
        a.merge Dict.override (b.merge Dict.override c) := by
    intro a b c
    cases a <;> cases b <;> cases c <;> simp only [Option.merge, Dict.override_assoc]
  simp only [andThen, Option.or_assoc, hnamed]

theorem andThen_self (o : Override) : o.andThen o = o := by
  obtain ⟨positional, named⟩ := o
  cases named <;> simp only [andThen, Option.merge, Option.or_self, Dict.override_self]

/-! ## The last of several overrides -/

/-- The positional arguments of the last override that has any. -/
def lastPositional? (overrides : List Override) : Option (List Value) :=
  (overrides.filterMap (·.positional)).getLast?

/-- The value of `name` in the last override that has one. -/
def lastBound? (overrides : List Override) (name : String) : Option Value :=
  (overrides.filterMap (·.bound? name)).getLast?

theorem lastPositional?_append (first second : List Override) :
    lastPositional? (first ++ second) = (lastPositional? second).or (lastPositional? first) := by
  simp only [lastPositional?, List.filterMap_append, List.getLast?_append]

theorem lastBound?_append (first second : List Override) (name : String) :
    lastBound? (first ++ second) name = (lastBound? second name).or (lastBound? first name) := by
  simp only [lastBound?, List.filterMap_append, List.getLast?_append]

theorem lastPositional?_singleton (o : Override) : lastPositional? [o] = o.positional := by
  cases h : o.positional <;> simp [lastPositional?, h]

theorem lastBound?_singleton (o : Override) (name : String) :
    lastBound? [o] name = o.bound? name := by
  cases h : o.bound? name <;> simp [lastBound?, h]

end Override

/-! ## Arguments under overrides -/

namespace Arguments

theorem get?_named_merged (args : Arguments) (o : Override) (name : String) :
    (args.merged o.positional o.named).named.get? name =
      (o.bound? name).or (args.named.get? name) := by
  obtain ⟨positional, named⟩ := o
  cases named with
  | none => rfl
  | some named => exact Dict.get?_override args.named named name

theorem merged_merged (args : Arguments) (first second : Override) :
    (args.merged first.positional first.named).merged second.positional second.named =
      args.merged (first.andThen second).positional (first.andThen second).named := by
  obtain ⟨positional, named⟩ := first
  obtain ⟨positional', named'⟩ := second
  have hempty : ∀ dict : Dict Value, dict.override .empty = dict := fun _ => rfl
  cases positional' <;> cases named <;> cases named' <;>
    simp only [merged, Override.andThen, Option.merge, Option.or, Option.getD, hempty,
      Dict.override_assoc]

/-- To override a second time with the same arguments changes nothing. -/
theorem merged_merged_self (args : Arguments) (o : Override) :
    (args.merged o.positional o.named).merged o.positional o.named =
      args.merged o.positional o.named := by
  rw [merged_merged, Override.andThen_self]

end Arguments

namespace Step

variable {τ : Type}

/-! ## Chains -/

/-- The step with an override. -/
def overridden (step : Step τ) (o : Override) : Step τ := step.withOverrides o.positional o.named

/-- The step with one override after the other. -/
def derive (step : Step τ) (overrides : List Override) : Step τ :=
  overrides.foldl overridden step

theorem overridden_overridden (step : Step τ) (first second : Override) :
    (step.overridden first).overridden second = step.overridden (first.andThen second) :=
  congrArg (Step.mk step.name step.transform) (Arguments.merged_merged step.arguments first second)

theorem derive_append (step : Step τ) (first second : List Override) :
    step.derive (first ++ second) = (step.derive first).derive second :=
  List.foldl_append

theorem name_derive (step : Step τ) (overrides : List Override) :
    (step.derive overrides).name = step.name := by
  induction overrides generalizing step with
  | nil => rfl
  | cons o rest ih => exact ih (step.overridden o)

/-- The step has the transform of `base`; its positional arguments are those of the last override
    that has any, and under each name is the value of the last override that has one. Whatever no
    override has is that of `base`. -/
structure DerivesFrom (step base : Step τ) (overrides : List Override) : Prop where
  transform_eq : step.transform = base.transform
  positional_eq : step.arguments.positional =
    (Override.lastPositional? overrides).getD base.arguments.positional
  named_eq : ∀ name, step.arguments.named.get? name =
    (Override.lastBound? overrides name).or (base.arguments.named.get? name)

namespace DerivesFrom

variable {step base : Step τ} {overrides : List Override}

theorem refl (base : Step τ) : base.DerivesFrom base [] := ⟨rfl, rfl, fun _ => rfl⟩

/-- **One override more** takes precedence over those before it. -/
theorem overridden (h : step.DerivesFrom base overrides) (o : Override) :
    (step.overridden o).DerivesFrom base (overrides ++ [o]) where
  transform_eq := h.transform_eq
  positional_eq := by
    rw [Override.lastPositional?_append, Override.lastPositional?_singleton, Option.getD_or,
      ← h.positional_eq]
    rfl
  named_eq name := by
    rw [Override.lastBound?_append, Override.lastBound?_singleton, Option.or_assoc, ← h.named_eq]
    exact Arguments.get?_named_merged step.arguments o name

theorem renamed (h : step.DerivesFrom base overrides) (name : String) :
    (step.renamed name).DerivesFrom base overrides :=
  ⟨h.transform_eq, h.positional_eq, h.named_eq⟩

/-- Nothing is left open but the name. -/
theorem eq {other : Step τ} (h : step.DerivesFrom base overrides)
    (hother : other.DerivesFrom base overrides) (hname : step.name = other.name) :
    step = other := by
  obtain ⟨name, transform, positional, named⟩ := step
  obtain ⟨name', transform', positional', named'⟩ := other
  obtain rfl : name = name' := hname
  obtain rfl : transform = transform' := h.transform_eq.trans hother.transform_eq.symm
  obtain rfl : positional = positional' := h.positional_eq.trans hother.positional_eq.symm
  obtain rfl : named = named' :=
    Entries.eq_of_get?_eq fun key => (h.named_eq key).trans (hother.named_eq key).symm
  rfl

/-- With the name of its base, a step that is derived with one override is the base with it. -/
theorem eq_overridden_iff {o : Override} :
    step = base.overridden o ↔ step.name = base.name ∧ step.DerivesFrom base [o] := by
  have hone : (base.overridden o).DerivesFrom base [o] := (refl base).overridden o
  constructor
  · rintro rfl
    exact ⟨rfl, hone⟩
  · rintro ⟨hname, h⟩
    exact h.eq hone hname

/-- A repetition of all overrides makes no difference. -/
theorem of_repeated (h : step.DerivesFrom base (overrides ++ overrides)) :
    step.DerivesFrom base overrides where
  transform_eq := h.transform_eq
  positional_eq := by
    rw [h.positional_eq, Override.lastPositional?_append, Option.or_self]
  named_eq name := by
    rw [h.named_eq, Override.lastBound?_append, Option.or_self]

/-- **A chain of overrides.** -/
theorem derive (h : step.DerivesFrom base overrides) (more : List Override) :
    (step.derive more).DerivesFrom base (overrides ++ more) := by
  induction more using List.reverseRecOn with
  | nil => rwa [List.append_nil]
  | append_singleton more o ih =>
      rw [derive_append, ← List.append_assoc]
      exact ih.overridden o

end DerivesFrom

/-- The stage of a step with an override, told by what the step is derived from. -/
theorem stage_eq_step_overridden_iff {base : Step τ} {o : Override} {stage : Stage τ} :
    stage = .step (base.overridden o) ↔ ∃ step : Step τ, step.name = base.name ∧
      step.DerivesFrom base [o] ∧ stage = .step step := by
  simp only [← and_assoc, ← DerivesFrom.eq_overridden_iff, exists_eq_left]

theorem derive_derive_self (base : Step τ) (overrides : List Override) :
    (base.derive overrides).derive overrides = base.derive overrides := by
  have honce : (base.derive overrides).DerivesFrom base overrides :=
    (DerivesFrom.refl base).derive overrides
  exact (honce.derive overrides).of_repeated.eq honce (name_derive _ overrides)

end Step

end Pipework
