import Pipework.Proofs.Cookbook.Apply
import Pipework.Proofs.Document.Value
import Pipework.Proofs.Pipeline.Derive
import Pipework.Proofs.Pipeline.Fold

set_option autoImplicit false

/-! # Overrides in definitions and in tuples

A definition of a step and an override tuple are two ways to write the same down: a registered step
with other positional arguments and with named ones merged in (`Cookbook.Overrides`). A stage that
names the defined step and one that is the tuple are interchangeable. Only what positional arguments
may be is not the same in both: a definition takes a mapping for a single argument, a tuple refuses
it (`Cookbook.apply_tuple_iff_apply_definition`). -/

namespace Pipework

/-! ## Arguments in tuples -/

namespace Specifier

theorem positionalOverride_eq_ok_iff {value : Value} (h : value.kind ≠ .null)
    {positional : Option (List Value)} :
    positionalOverride value = .ok positional ↔
      value.kind ≠ .map ∧ positional = some value.toPositional := by
  cases value with
  | null => exact absurd rfl h
  | map entries => exact ⟨nofun, fun hmap => absurd rfl hmap.1⟩
  | _ =>
      constructor
      · intro hok
        exact ⟨nofun, (Except.ok.inj hok).symm⟩
      · rintro ⟨-, rfl⟩
        rfl

theorem ofValue_tuple_eq_ok_iff {base : String} {args kwargs : Value} (h : args.kind ≠ .null)
    {specifier : Specifier} :
    ofValue (.list [.text base, args, kwargs]) = .ok specifier ↔
      args.kind ≠ .map ∧ ∃ named, namedOverride kwargs = .ok named ∧
        specifier = .overridden base (some args.toPositional) named := by
  have htuple : ofValue (.list [.text base, args, kwargs]) = ofParts (.text base) args kwargs := rfl
  rw [htuple, ofParts]
  simp only [bind_eq_ok_iff, pure_eq_ok_iff, positionalOverride_eq_ok_iff h]
  constructor
  · rintro ⟨_, ⟨hkind, rfl⟩, named, hnamed, rfl⟩
    exact ⟨hkind, named, hnamed, rfl⟩
  · rintro ⟨hkind, named, hnamed, rfl⟩
    exact ⟨_, ⟨hkind, rfl⟩, named, hnamed, rfl⟩

end Specifier

theorem Document.toValue_tuple_eq_ok_iff {base : String} {args document : Document}
    {value : Value} :
    toValue (.sequence [.text base, args, document]) = .ok value ↔
      ∃ positional named, args.toValue = .ok positional ∧ document.toValue = .ok named ∧
        value = .list [.text base, positional, named] := by
  rw [toValue_sequence_eq_ok_iff]
  simp only [List.forall₂_cons_left_iff, List.forall₂_nil_left_iff]
  constructor
  · rintro ⟨_, ⟨_, _, hbase, ⟨positional, _, hargs, ⟨named, _, hnamed, rfl, rfl⟩, rfl⟩, rfl⟩, rfl⟩
    obtain rfl := Except.ok.inj hbase
    exact ⟨positional, named, hargs, hnamed, rfl⟩
  · rintro ⟨positional, named, hargs, hnamed, rfl⟩
    exact ⟨_, ⟨_, _, rfl, ⟨positional, _, hargs, ⟨named, _, hnamed, rfl, rfl⟩, rfl⟩, rfl⟩, rfl⟩

/-- The document says in a tuple what `kwargs` says in a definition; its entries may stand in any
    order. -/
inductive Document.SpellsNamed (document : Document) : Option (Dict Document) → Prop
  | absent (h : document = .null) : SpellsNamed document none
  | present {kwargs : Dict Document} {pairs : List (String × Document)}
      (h : document = .mapping (textEntries pairs)) (hpairs : pairs.Perm kwargs.toList) :
      SpellsNamed document (some kwargs)

theorem Document.SpellsNamed.exists_namedOverride_iff {document : Document}
    {kwargs : Option (Dict Document)} (h : document.SpellsNamed kwargs)
    {named : Option (Dict Value)} :
    (∃ value, document.toValue = .ok value ∧ Specifier.namedOverride value = .ok named) ↔
      kwargs.mapM (Entries.mapExcept toValue) = .ok named := by
  cases h with
  | absent h =>
      subst h
      constructor
      · rintro ⟨value, hvalue, hnamed⟩
        obtain rfl := Except.ok.inj hvalue
        obtain rfl := Except.ok.inj hnamed
        rfl
      · intro hnamed
        obtain rfl := Except.ok.inj hnamed
        exact ⟨.null, rfl, rfl⟩
  | @present kwargs pairs h hpairs =>
      subst h
      have hmapM : (some kwargs).mapM (Entries.mapExcept toValue) =
          kwargs.mapExcept toValue >>= fun images => pure (some images) := rfl
      simp only [toValue_mapping_eq_ok_iff hpairs, hmapM, bind_eq_ok_iff, pure_eq_ok_iff]
      constructor
      · rintro ⟨_, ⟨images, himages, rfl⟩, hnamed⟩
        exact ⟨images, himages, Except.ok.inj hnamed⟩
      · rintro ⟨images, himages, rfl⟩
        exact ⟨_, ⟨images, himages, rfl⟩, rfl⟩

/-! ## Overridden steps -/

namespace Cookbook

variable {cookbook : Cookbook} {base : String} {args document : Document}
  {kwargs : Option (Dict Document)} {step : Step Transform}

/-- The registered step `base` with `args` for its positional arguments and `kwargs` among its named
    ones. -/
def Overrides (cookbook : Cookbook) (base : String) (args : Document)
    (kwargs : Option (Dict Document)) (step : Step Transform) : Prop :=
  ∃ template value named, cookbook.steps.get? base = some template ∧ args.toValue = .ok value ∧
    kwargs.mapM (Entries.mapExcept Document.toValue) = .ok named ∧
    step = template.withOverrides (some value.toPositional) named

theorem stepOf_eq_ok_iff {name : String} :
    cookbook.stepOf ⟨name, base, some args, kwargs⟩ = .ok step ↔
      ∃ overridden, cookbook.Overrides base args kwargs overridden ∧
        step = overridden.renamed name := by
  have hmapM : (some args).mapM Document.toValue =
      args.toValue >>= fun value => pure (some value) := rfl
  simp only [stepOf, Overrides, hmapM, bind_eq_ok_iff, pure_eq_ok_iff, mapError_eq_ok_iff,
    Registry.get_eq_ok_iff]
  constructor
  · rintro ⟨template, hbase, _, ⟨value, hvalue, rfl⟩, named, hnamed, rfl⟩
    exact ⟨_, ⟨template, value, named, hbase, hvalue, hnamed, rfl⟩, rfl⟩
  · rintro ⟨_, ⟨template, value, named, hbase, hvalue, hnamed, rfl⟩, rfl⟩
    exact ⟨template, hbase, _, ⟨value, hvalue, rfl⟩, named, hnamed, rfl⟩

theorem denotes_tuple_iff (hargs : args.kind ≠ .null) (hnamed : document.SpellsNamed kwargs)
    {stage : Stage Transform} :
    cookbook.Denotes (.sequence [.text base, args, document]) stage ↔
      args.kind ≠ .mapping ∧ ∃ step, cookbook.Overrides base args kwargs step ∧
        stage = .step step := by
  unfold Denotes
  simp only [Document.toValue_tuple_eq_ok_iff]
  constructor
  · rintro ⟨_, specifier, ⟨value, written, hvalue, hwritten, rfl⟩, hspecifier, hstage⟩
    have hnull : value.kind ≠ .null := mt (Document.kind_eq_null_iff_of_toValue hvalue).1 hargs
    obtain ⟨hkind, named, hoverride, rfl⟩ :=
      (Specifier.ofValue_tuple_eq_ok_iff hnull).1 hspecifier
    obtain ⟨template, htemplate, rfl⟩ := stage_overridden_eq_ok_iff.1 hstage
    have hkwargs := hnamed.exists_namedOverride_iff.1 ⟨written, hwritten, hoverride⟩
    exact ⟨mt (Document.kind_eq_map_iff_of_toValue hvalue).2 hkind, _,
      ⟨template, value, named, htemplate, hvalue, hkwargs, rfl⟩, rfl⟩
  · rintro ⟨hkind, _, ⟨template, value, named, htemplate, hvalue, hkwargs, rfl⟩, rfl⟩
    have hnull : value.kind ≠ .null := mt (Document.kind_eq_null_iff_of_toValue hvalue).1 hargs
    obtain ⟨written, hwritten, hoverride⟩ := hnamed.exists_namedOverride_iff.2 hkwargs
    have hspecifier : Specifier.ofValue (.list [.text base, value, written]) =
        .ok (.overridden base (some value.toPositional) named) :=
      (Specifier.ofValue_tuple_eq_ok_iff hnull).2
        ⟨mt (Document.kind_eq_map_iff_of_toValue hvalue).1 hkind, named, hoverride, rfl⟩
    exact ⟨_, _, ⟨value, written, hvalue, hwritten, rfl⟩, hspecifier,
      stage_overridden_eq_ok_iff.2 ⟨template, htemplate, rfl⟩⟩

/-! ## Behind the definition -/

theorem denotes_text_of_get? {name : String} (h : cookbook.steps.get? name = some step) :
    cookbook.Denotes (.text name) (.step step) := by
  refine ⟨.text name, .named name, rfl, rfl, ?_⟩
  have hname : cookbook.nested (.named name) = .named name := by
    simp only [nested, Registry.contains, h, Option.isSome_some, if_true]
  rw [hname]
  exact bind_eq_ok_iff.2 ⟨step, Registry.get_eq_ok_iff.2 h, rfl⟩

/-- If the step takes the place of its base, it is overridden with what it has already. -/
theorem Overrides.addStep (h : cookbook.Overrides base args kwargs step) (name : String) :
    ∃ other, (cookbook.addStep name (step.renamed name)).cookbook.Overrides base args kwargs other ∧
      other.transform = step.transform ∧ other.arguments = step.arguments := by
  obtain ⟨template, value, named, htemplate, hvalue, hnamed, rfl⟩ := h
  let entry := (template.withOverrides (some value.toPositional) named).renamed name
  have hget : (cookbook.addStep name entry).cookbook.steps.get? base =
      if name = base then some entry else cookbook.steps.get? base := get?_addStep ..
  by_cases hname : name = base
  · rw [if_pos hname] at hget
    exact ⟨_, ⟨entry, value, named, hget, hvalue, hnamed, rfl⟩, rfl,
      Arguments.merged_merged_self _ ⟨_, _⟩⟩
  · rw [if_neg hname] at hget
    exact ⟨_, ⟨template, value, named, hget.trans htemplate, hvalue, hnamed, rfl⟩, rfl, rfl⟩

/-! ## Interchangeable documents -/

theorem denotes_rightUnique (cookbook : Cookbook) : Relator.RightUnique cookbook.Denotes := by
  rintro document stage other ⟨value, specifier, hvalue, hspecifier, hstage⟩
    ⟨value', specifier', hvalue', hspecifier', hother⟩
  obtain rfl := Except.ok.inj (hvalue.symm.trans hvalue')
  obtain rfl := Except.ok.inj (hspecifier.symm.trans hspecifier')
  exact Except.ok.inj (hstage.symm.trans hother)

/-- Wherever one document stands for a stage of a pipeline, the other one may stand as well: the
    pipeline can be built or not, and if it can, its runs give the same, up to the name of the step
    that a failure is of. -/
def Interchangeable (cookbook : Cookbook) (document other : Document) : Prop :=
  ∀ (front back : List Document) (name name' : String),
    ((∃ pipeline, cookbook.pipelineOf ⟨name, front ++ document :: back⟩ = .ok pipeline) ↔
      ∃ pipeline, cookbook.pipelineOf ⟨name', front ++ other :: back⟩ = .ok pipeline) ∧
    ∀ first second, cookbook.pipelineOf ⟨name, front ++ document :: back⟩ = .ok first →
      cookbook.pipelineOf ⟨name', front ++ other :: back⟩ = .ok second →
      ∀ (source : RandomSource) (value : Value),
        (first.run source value).source = (second.run source value).source ∧
        (first.run source value).result.mapError RunError.unnamed =
          (second.run source value).result.mapError RunError.unnamed

theorem apply_eq_of_denotes {other : Document} {stage stage' : Stage Transform}
    (h : cookbook.Denotes document stage) (hother : cookbook.Denotes other stage')
    (happly : stage.apply = stage'.apply) {front back : List Document}
    {stages stages' : List (Stage Transform)}
    (hstages : List.Forall₂ cookbook.Denotes (front ++ document :: back) stages)
    (hstages' : List.Forall₂ cookbook.Denotes (front ++ other :: back) stages') :
    List.Forall₂ (fun stage other => stage.apply = other.apply) stages stages' := by
  have hsame : ∀ stages : List (Stage Transform),
      List.Forall₂ (fun stage other => stage.apply = other.apply) stages stages :=
    fun stages => List.forall₂_same.2 fun _ _ => rfl
  induction front generalizing stages stages' with
  | nil =>
      cases hstages with
      | cons hfirst hrest =>
          cases hstages' with
          | cons hfirst' hrest' =>
              obtain rfl := cookbook.denotes_rightUnique h hfirst
              obtain rfl := cookbook.denotes_rightUnique hother hfirst'
              obtain rfl := cookbook.denotes_rightUnique.forall₂ hrest hrest'
              exact .cons happly (hsame _)
  | cons before front ih =>
      cases hstages with
      | cons hfirst hrest =>
          cases hstages' with
          | cons hfirst' hrest' =>
              obtain rfl := cookbook.denotes_rightUnique hfirst hfirst'
              exact .cons rfl (ih hrest hrest')

theorem interchangeable_of_denotes {other : Document} {stage stage' : Stage Transform}
    (h : cookbook.Denotes document stage) (hother : cookbook.Denotes other stage')
    (happly : stage.apply = stage'.apply) : cookbook.Interchangeable document other := by
  intro front back name name'
  constructor
  · simp only [exists_pipelineOf_iff, List.forall_mem_append, List.forall_mem_cons,
      exists_denotes_iff.1 ⟨stage, h⟩, exists_denotes_iff.1 ⟨stage', hother⟩]
  · intro first second hfirst hsecond source value
    obtain ⟨stages, hstages, rfl⟩ := pipelineOf_eq_ok_iff.1 hfirst
    obtain ⟨stages', hstages', rfl⟩ := pipelineOf_eq_ok_iff.1 hsecond
    exact runStages_congr (apply_eq_of_denotes h hother happly hstages hstages') name name' 0
      ⟨value, source⟩

/-! ## Configurations with one definition -/

theorem result_apply_eq_ok_iff {config : Config} {definition : Definition} (origin : String)
    (h : config.definitions = [definition]) :
    (cookbook.apply config origin).result = .ok () ↔ definition.Usable cookbook := by
  rw [result_apply, h, ← exists_define_iff, result_defineAll_cons_eq_ok_iff]
  exact exists_congr fun change => and_iff_left rfl

theorem usable_step_iff {name : String} :
    (Definition.step ⟨name, base, some args, kwargs⟩).Usable cookbook ↔
      ∃ step, cookbook.Overrides base args kwargs step := by
  rw [← exists_define_iff, define, exists_bind_eq_ok_iff]
  constructor
  · rintro ⟨_, hstep, -⟩
    obtain ⟨step, hstep, -⟩ := stepOf_eq_ok_iff.1 hstep
    exact ⟨step, hstep⟩
  · rintro ⟨step, hstep⟩
    exact ⟨_, stepOf_eq_ok_iff.2 ⟨step, hstep, rfl⟩, _, rfl⟩

theorem usable_pipeline_iff {definition : PipelineDefinition} :
    (Definition.pipeline definition).Usable cookbook ↔
      ∀ document ∈ definition.steps, cookbook.Specifies document :=
  ⟨fun h => match h with | .pipeline hsteps => hsteps, .pipeline⟩

theorem cookbook_apply_step {definition : StepDefinition} (origin : String)
    (h : cookbook.stepOf definition = .ok step) :
    (cookbook.apply ⟨[definition], []⟩ origin).cookbook =
      (cookbook.addStep definition.name step).cookbook := by
  have hdefine : cookbook.define (.step definition) = .ok (cookbook.addStep definition.name step) :=
    define_step_eq_ok_iff.2 ⟨step, h, rfl⟩
  rw [cookbook_apply]
  exact congrArg Applied.cookbook (defineAll_cons_of_ok hdefine [])

/-- **Overrides in a tuple and in a definition.** A pipeline with the tuple among stages that are
    known is accepted exactly if the definition is and the positional arguments are no mapping. If
    so, the name of the defined step and the tuple, read before the definition or behind it, stand
    for steps with the same transform and the same arguments, and one may take the place of the
    other in any pipeline. -/
theorem apply_tuple_iff_apply_definition {base : String} {args document : Document}
    {kwargs : Option (Dict Document)} (hargs : args.kind ≠ .null)
    (hnamed : document.SpellsNamed kwargs) (cookbook : Cookbook) (name origin : String) :
    let applied := cookbook.apply ⟨[⟨name, base, some args, kwargs⟩], []⟩ origin
    let tuple : Document := .sequence [.text base, args, document]
    (∀ (front back : List Document) (pipeline : String),
      (∀ other ∈ front ++ back, cookbook.Specifies other) →
      ((cookbook.apply ⟨[], [⟨pipeline, front ++ tuple :: back⟩]⟩ origin).result = .ok () ↔
        applied.result = .ok () ∧ args.kind ≠ .mapping)) ∧
    (applied.result = .ok () → args.kind ≠ .mapping →
      (∀ book ∈ [cookbook, applied.cookbook], ∃ defined overridden,
        applied.cookbook.Denotes (.text name) (.step defined) ∧
        book.Denotes tuple (.step overridden) ∧
        defined.transform = overridden.transform ∧ defined.arguments = overridden.arguments) ∧
      applied.cookbook.Interchangeable (.text name) tuple) := by
  intro applied tuple
  have haccepted : applied.result = .ok () ↔ ∃ step, cookbook.Overrides base args kwargs step :=
    (result_apply_eq_ok_iff origin rfl).trans usable_step_iff
  constructor
  · intro front back pipeline hothers
    have htuple : cookbook.Specifies tuple ↔ applied.result = .ok () ∧ args.kind ≠ .mapping := by
      rw [haccepted, ← exists_denotes_iff]
      simp only [tuple, denotes_tuple_iff hargs hnamed]
      constructor
      · rintro ⟨_, hkind, step, hstep, -⟩
        exact ⟨⟨step, hstep⟩, hkind⟩
      · rintro ⟨⟨step, hstep⟩, hkind⟩
        exact ⟨_, hkind, step, hstep, rfl⟩
    rw [List.forall_mem_append] at hothers
    rw [result_apply_eq_ok_iff origin rfl, usable_pipeline_iff, ← htuple, List.forall_mem_append,
      List.forall_mem_cons]
    exact ⟨fun h => h.2.1, fun h => ⟨hothers.1, h, hothers.2⟩⟩
  · intro hresult hkind
    obtain ⟨step, hstep⟩ := haccepted.1 hresult
    have hbook : applied.cookbook = (cookbook.addStep name (step.renamed name)).cookbook :=
      cookbook_apply_step origin (stepOf_eq_ok_iff.2 ⟨step, hstep, rfl⟩)
    have hdefined : applied.cookbook.Denotes (.text name) (.step (step.renamed name)) := by
      rw [hbook]
      exact denotes_text_of_get? ((get?_addStep ..).trans (if_pos rfl))
    obtain ⟨again, hagain, htransform, harguments⟩ := hstep.addStep name
    rw [← hbook] at hagain
    have htuple : applied.cookbook.Denotes tuple (.step again) :=
      (denotes_tuple_iff hargs hnamed).2 ⟨hkind, again, hagain, rfl⟩
    constructor
    · intro book hmem
      simp only [List.mem_cons, List.not_mem_nil, or_false] at hmem
      rcases hmem with rfl | rfl
      · exact ⟨_, step, hdefined, (denotes_tuple_iff hargs hnamed).2 ⟨hkind, step, hstep, rfl⟩,
          rfl, rfl⟩
      · exact ⟨_, again, hdefined, htuple, htransform.symm, harguments.symm⟩
    · refine interchangeable_of_denotes hdefined htuple ?_
      funext state
      simp only [Stage.apply, Step.renamed, htransform, harguments]

/-- A key of 16 bytes, with the named arguments of the tuple in the other order. -/
theorem apply_tuple_derive_key :
    let cookbook := withCatalogue.cookbook
    let kwargs : Dict Document :=
      .cons "iterations" (above_none _) (.int 1) (.cons "salt" (above_some (by decide))
        (.tagged "hex" (.text "5ea0")) .nil)
    let named := Document.textEntries
      [("salt", .tagged "hex" (.text "5ea0")), ("iterations", .int 1)]
    let applied := cookbook.apply ⟨[⟨"short_key", "derive_key", some (.int 16), some kwargs⟩], []⟩
      inlineOrigin
    let tuple : Document := .sequence [.text "derive_key", .int 16, .mapping named]
    (cookbook.apply ⟨[], [⟨"p", [tuple, .text "bytes_to_hex"]⟩]⟩ inlineOrigin).result = .ok () ∧
      applied.cookbook.Interchangeable (.text "short_key") tuple := by
  intro cookbook kwargs named applied tuple
  have hnamed : (Document.mapping named).SpellsNamed (some kwargs) :=
    .present rfl (.swap _ _ [])
  have hothers : ∀ other ∈ [] ++ [Document.text "bytes_to_hex"], cookbook.Specifies other := by
    intro other hmem
    obtain rfl := List.mem_singleton.1 hmem
    exact ⟨_, _, rfl, rfl, Or.inl (by decide)⟩
  have hargs : (Document.int 16).kind ≠ .null := nofun
  obtain ⟨haccepted, hsame⟩ :=
    apply_tuple_iff_apply_definition hargs hnamed cookbook "short_key" inlineOrigin
  have hresult : applied.result = .ok () := rfl
  exact ⟨(haccepted [] [.text "bytes_to_hex"] "p" hothers).2 ⟨hresult, nofun⟩,
    (hsame hresult nofun).2⟩

/-- An empty mapping is the single argument of a defined step, but no part of a tuple. -/
theorem apply_accepts_mapping_in_definition_only :
    let cookbook := withCatalogue.cookbook
    let args : Document := .mapping []
    (cookbook.apply ⟨[⟨"n", "str_to_bytes", some args, none⟩], []⟩ inlineOrigin).result = .ok () ∧
      (cookbook.apply ⟨[], [⟨"p", [.sequence [.text "str_to_bytes", args, .null]]⟩]⟩
        inlineOrigin).result = .error (.pipeline "p" (.specifier (some 0) .positionalMap)) :=
  ⟨rfl, rfl⟩

end Cookbook

end Pipework
