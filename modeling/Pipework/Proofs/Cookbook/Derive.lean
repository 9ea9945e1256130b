import Pipework.Proofs.Arguments
import Pipework.Proofs.Cookbook.Apply
import Pipework.Proofs.Pipeline.Derive

set_option autoImplicit false

/-! # Chains of definitions

A definition of a step derives it from its base with an override (`StepDefinition.override`). The
next definition may start from what it makes, and so on; whatever else a configuration defines in
between is no matter, as long as it does not take the name that the chain has got to
(`Cookbook.Chain`). Definition by definition the override at hand comes to those there are
(`Cookbook.Chain.exists_derivesFrom`), so a chain of definitions is a chain of overrides. -/

namespace Pipework

/-! ## Overrides of definitions -/

/-- The override that a definition makes of its documents. -/
def StepDefinition.override (definition : StepDefinition) : Except DocumentError Override := do
  let positional ← definition.args.mapM Document.toValue
  let named ← definition.kwargs.mapM (Entries.mapExcept Document.toValue)
  return ⟨positional.map Value.toPositional, named⟩

namespace Cookbook

variable {cookbook : Cookbook} {step base : Step Transform}

theorem stepOf_eq_ok_iff_override {definition : StepDefinition} :
    cookbook.stepOf definition = .ok step ↔
      ∃ template o, cookbook.steps.get? definition.base = some template ∧
        definition.override = .ok o ∧
        step = (template.overridden o).renamed definition.name := by
  simp only [stepOf, StepDefinition.override, bind_eq_ok_iff, pure_eq_ok_iff, mapError_eq_ok_iff,
    Registry.get_eq_ok_iff]
  constructor
  · rintro ⟨template, htemplate, positional, hpositional, named, hnamed, rfl⟩
    exact ⟨template, _, htemplate, ⟨positional, hpositional, named, hnamed, rfl⟩, rfl⟩
  · rintro ⟨template, _, htemplate, ⟨positional, hpositional, named, hnamed, rfl⟩, rfl⟩
    exact ⟨template, htemplate, positional, hpositional, named, hnamed, rfl⟩

/-! ## Chains -/

/-- From the step `start` on, each of `links` defines a step by the one that is there and so comes
    to the step `last`. The links are among `definitions`, in order, and no other definition is of
    the step that is there at that point. -/
inductive Chain : String → List Definition → List StepDefinition → String → Prop
  | done {name : String} : Chain name [] [] name
  | other {name last : String} {definition : Definition} {rest : List Definition}
      {links : List StepDefinition}
      (hname : ∀ other, definition = .step other → other.name ≠ name)
      (hrest : Chain name rest links last) : Chain name (definition :: rest) links last
  | link {name last : String} {definition : StepDefinition} {rest : List Definition}
      {links : List StepDefinition} (hbase : definition.base = name)
      (hrest : Chain definition.name rest links last) :
      Chain name (.step definition :: rest) (definition :: links) last

namespace Chain

variable {start last : String} {definitions : List Definition} {links : List StepDefinition}

theorem length_le (h : Chain start definitions links last) : links.length ≤ definitions.length := by
  induction h with
  | done => exact Nat.le_refl _
  | other _ _ ih => exact Nat.le_succ_of_le ih
  | link _ _ ih => exact Nat.succ_le_succ ih

/-- **A chain of definitions** adds one override for each of its links to those with which the step
    at its start is derived. -/
theorem exists_derivesFrom (h : Chain start definitions links last) {before : List Override}
    (hstart : cookbook.steps.get? start = some step) (hstep : step.DerivesFrom base before)
    (hok : (cookbook.defineAll definitions).result = .ok ()) :
    ∃ overrides final, List.Forall₂ (fun link o => link.override = .ok o) links overrides ∧
      (cookbook.defineAll definitions).cookbook.steps.get? last = some final ∧
      final.DerivesFrom base (before ++ overrides) := by
  induction h generalizing cookbook step before with
  | done => exact ⟨[], step, .nil, hstart, by rwa [List.append_nil]⟩
  | other hname _ ih =>
      obtain ⟨change, hdefine, hrest⟩ := result_defineAll_cons_eq_ok_iff.1 hok
      rw [defineAll_cons_of_ok hdefine]
      exact ih ((get?_steps_of_define hdefine hname).trans hstart) hstep hrest
  | @link name last definition rest links hbase _ ih =>
      obtain ⟨change, hdefine, hrest⟩ := result_defineAll_cons_eq_ok_iff.1 hok
      rw [defineAll_cons_of_ok hdefine]
      obtain ⟨next, hnext, rfl⟩ := define_step_eq_ok_iff.1 hdefine
      obtain ⟨template, o, htemplate, hoverride, rfl⟩ := stepOf_eq_ok_iff_override.1 hnext
      rw [hbase] at htemplate
      obtain rfl := Option.some.inj (hstart.symm.trans htemplate)
      have hthere := (hstep.overridden o).renamed definition.name
      obtain ⟨overrides, final, hoverrides, hfinal, hderives⟩ :=
        ih ((get?_addStep ..).trans (if_pos rfl)) hthere hrest
      rw [List.append_assoc, List.singleton_append] at hderives
      exact ⟨o :: overrides, final, .cons hoverride hoverrides, hfinal, hderives⟩

/-- If there is nothing but a chain, its bases are all found. -/
theorem result_defineAll_eq_ok_iff (h : Chain start (links.map .step) links last)
    (hstart : cookbook.steps.get? start = some step) :
    (cookbook.defineAll (links.map .step)).result = .ok () ↔
      ∀ link ∈ links, ∃ o, link.override = .ok o := by
  induction links generalizing cookbook start step with
  | nil => exact ⟨fun _ => nofun, fun _ => rfl⟩
  | cons definition rest ih =>
      rw [List.map_cons] at h ⊢
      cases h with
      | other _ hrest =>
          have hle := hrest.length_le
          rw [List.length_map, List.length_cons] at hle
          exact absurd hle (Nat.not_succ_le_self _)
      | link hbase hrest =>
          rw [← hbase] at hstart
          rw [result_defineAll_cons_eq_ok_iff, List.forall_mem_cons]
          have hthere : ∀ next, (cookbook.addStep definition.name next).cookbook.steps.get?
              definition.name = some next := fun _ => (get?_addStep ..).trans (if_pos rfl)
          constructor
          · rintro ⟨change, hdefine, hok⟩
            obtain ⟨next, hnext, rfl⟩ := define_step_eq_ok_iff.1 hdefine
            obtain ⟨_, o, -, hoverride, -⟩ := stepOf_eq_ok_iff_override.1 hnext
            exact ⟨⟨o, hoverride⟩, (ih hrest (hthere next)).1 hok⟩
          · rintro ⟨⟨o, hoverride⟩, hlinks⟩
            have hnext := stepOf_eq_ok_iff_override.2 ⟨step, o, hstart, hoverride, rfl⟩
            exact ⟨_, define_step_eq_ok_iff.2 ⟨_, hnext, rfl⟩, (ih hrest (hthere _)).2 hlinks⟩

end Chain

/-- **Of several overrides the last one counts.** What is derived from `base` by one override after
    the other, by definitions of a configuration each of which starts from the step that the one
    before makes, or by both in turn, has the transform of `base` and the arguments that the last
    overrides tell (`Step.DerivesFrom`); such definitions are accepted if their documents are
    values. So two overrides make a single one, in whichever way they are grouped, and overrides
    make no difference when they are repeated. A transform finds an argument by its name; null
    there hides the argument at the position, which is found only if the name is not bound. -/
theorem last_override_counts (base : Step Transform) :
    base.DerivesFrom base [] ∧
    (∀ (step : Step Transform) (before overrides : List Override), step.DerivesFrom base before →
      (step.derive overrides).DerivesFrom base (before ++ overrides)) ∧
    (∀ (cookbook : Cookbook) (config : Config) (origin start last : String)
      (links : List StepDefinition) (step : Step Transform) (before : List Override),
      step.DerivesFrom base before → cookbook.steps.get? start = some step →
      Chain start config.definitions links last →
      (cookbook.apply config origin).result = .ok () →
      ∃ overrides final, List.Forall₂ (fun link o => link.override = .ok o) links overrides ∧
        (cookbook.apply config origin).cookbook.steps.get? last = some final ∧
        final.DerivesFrom base (before ++ overrides)) ∧
    (∀ (cookbook : Cookbook) (origin start last : String) (links : List StepDefinition),
      cookbook.steps.get? start = some base → Chain start (links.map .step) links last →
      ((cookbook.apply ⟨links, []⟩ origin).result = .ok () ↔
        ∀ link ∈ links, ∃ o, link.override = .ok o)) ∧
    (∀ first second third : Override,
      (base.overridden first).overridden second = base.overridden (first.andThen second) ∧
      (first.andThen second).andThen third = first.andThen (second.andThen third)) ∧
    (∀ overrides, (base.derive overrides).derive overrides = base.derive overrides) ∧
    ∀ (step : Step Transform) (overrides : List Override), step.DerivesFrom base overrides →
      ∀ index name, step.arguments.Finds index name := by
  refine ⟨.refl base, fun _ _ overrides h => h.derive overrides, ?_, ?_, ?_,
    base.derive_derive_self, fun step _ _ => step.arguments.finds⟩
  · intro cookbook config origin start last links step before hstep hstart hchain hok
    rw [result_apply] at hok
    rw [cookbook_apply]
    exact hchain.exists_derivesFrom hstart hstep hok
  · intro cookbook origin start last links hstart hchain
    have hdefinitions : (Config.mk links []).definitions = links.map .step := List.append_nil _
    rw [result_apply, hdefinitions]
    exact hchain.result_defineAll_eq_ok_iff hstart
  · exact fun first second third =>
      ⟨base.overridden_overridden first second, first.andThen_assoc second third⟩

/-- The second of two definitions takes back what the first one binds, and with it the algorithm at
    the first position. -/
theorem last_override_counts_algorithm :
    let algorithm : Document → Option (Dict Document) := fun document =>
      some (.cons "algorithm" (above_none _) document .nil)
    let config : Config := ⟨[⟨"long", "sha384", none, algorithm (.text "sha512")⟩,
      ⟨"plain", "long", none, algorithm .null⟩], []⟩
    ∃ final, (withCatalogue.cookbook.apply config inlineOrigin).cookbook.steps.get? "plain" =
        some final ∧
      final.transform = .builtin .hash ∧ final.arguments.positional = [.text "sha384"] ∧
      final.arguments.get? 0 "algorithm" = none := by
  intro algorithm config
  obtain ⟨hbase, -, hchain, -, -, -, hfinds⟩ := last_override_counts (Catalogue.digest "sha384")
  have hlinks : Chain "sha384" config.definitions config.steps "plain" :=
    .link rfl (.link rfl .done)
  obtain ⟨overrides, final, hoverrides, hfinal, hderives⟩ :=
    hchain withCatalogue.cookbook config inlineOrigin _ _ _ _ _ hbase rfl hlinks rfl
  simp only [config, List.forall₂_cons_left_iff, List.forall₂_nil_left_iff] at hoverrides
  obtain ⟨first, _, hfirst, ⟨second, _, hsecond, rfl, rfl⟩, rfl⟩ := hoverrides
  obtain rfl := Except.ok.inj hfirst
  obtain rfl := Except.ok.inj hsecond
  exact ⟨final, hfinal, hderives.transform_eq, hderives.positional_eq,
    (hfinds final _ hderives 0 "algorithm").of_null (hderives.named_eq "algorithm")⟩

end Cookbook

end Pipework
