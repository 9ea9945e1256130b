import Pipework.Proofs.Cookbook.Apply
import Pipework.Proofs.Cookbook.Build
import Pipework.Proofs.Cookbook.Stage

set_option autoImplicit false

/-! # Pipelines among the stages

The definition of a pipeline is built like a pipeline from values, only that a name of its own may be
that of a pipeline (`Cookbook.BuildsNested`). Where there is no such name, building from values gives
the same stages and the same refusals (`Cookbook.apply_mirrors_build`). -/

namespace Pipework.Cookbook

variable {cookbook : Cookbook} {value : Value}

/-! ## Lists of values -/

/-- What comes of building a pipeline without a name from values, whose plain names may be those of
    pipelines. The first value of the wrong shape is refused wherever it stands, and only if there
    is none the first one whose name is not known. -/
inductive BuildsNested (cookbook : Cookbook) (values : List Value) :
    Except CookbookError (Pipeline Transform) → Prop
  | built {stages : List (Stage Transform)} (h : List.Forall₂ cookbook.Fills values stages) :
      BuildsNested cookbook values (.ok ⟨none, stages⟩)
  | misshapen {index : Nat} {value : Value} {error : SpecifierError}
      (hvalue : values[index]? = some value)
      (hearlier : ∀ earlier ∈ values.take index,
        ∃ specifier, Specifier.ofValue earlier = .ok specifier)
      (h : Specifier.ofValue value = .error error) :
      BuildsNested cookbook values (.error (.config (.specifier (some index) error)))
  | unknown {index : Nat} {value : Value} {name : String}
      (hshape : ∀ other ∈ values, ∃ specifier, Specifier.ofValue other = .ok specifier)
      (hvalue : values[index]? = some value) (hname : value.leadingName? = some name)
      (hearlier : ∀ earlier ∈ values.take index, ∃ stage, cookbook.Fills earlier stage)
      (h : ∀ stage, ¬cookbook.Fills value stage) :
      BuildsNested cookbook values (.error (.notFound ⟨.step, name⟩))

/-- The first value of the wrong shape decides. -/
theorem exists_misshapen {position : Nat} {values : List Value} {error : ConfigError}
    (h : specifiersOf position values = .error error) :
    ∃ index value reason, values[index]? = some value ∧
      (∀ earlier ∈ values.take index,
        ∃ specifier, Specifier.ofValue earlier = .ok specifier) ∧
      Specifier.ofValue value = .error reason ∧
      error = .specifier (some (position + index)) reason := by
  obtain ⟨before, value, after, reason, rfl, hbefore, hvalue, rfl⟩ := specifiersOf_eq_error_iff.1 h
  refine ⟨before.length, value, reason, by simp, ?_, hvalue, rfl⟩
  rwa [List.take_left]

theorem forall₂_fills_of_build {values : List Value} {specifiers : List Specifier}
    {stages : List (Stage Transform)}
    (hread : List.Forall₂ (fun value specifier => Specifier.ofValue value = .ok specifier) values
      specifiers)
    (h : (specifiers.map cookbook.nested).mapM (Specifier.stage cookbook.steps) = .ok stages) :
    List.Forall₂ cookbook.Fills values stages := by
  rw [List.mapM_map] at h
  exact (mapM_eq_ok_iff_of_forall₂ hread fun _ _ h _ => fills_iff_of_ofValue h).1 h

/-- The first name that is not known decides. -/
theorem exists_unknown_of_build {values : List Value} {specifiers : List Specifier}
    {error : NotFound}
    (hread : List.Forall₂ (fun value specifier => Specifier.ofValue value = .ok specifier) values
      specifiers)
    (h : (specifiers.map cookbook.nested).mapM (Specifier.stage cookbook.steps) = .error error) :
    ∃ index value name, values[index]? = some value ∧ value.leadingName? = some name ∧
      (∀ earlier ∈ values.take index, ∃ stage, cookbook.Fills earlier stage) ∧
      (∀ stage, ¬cookbook.Fills value stage) ∧ error = ⟨.step, name⟩ := by
  rw [List.mapM_map] at h
  obtain ⟨before, value, after, specifier, rfl, hbefore, hvalue, hstage⟩ :=
    (mapM_eq_error_iff_of_forall₂ hread fun _ _ h _ => fills_iff_of_ofValue h).1 h
  obtain ⟨name, hname, rfl⟩ := leadingName?_of_stage_eq_error hvalue hstage
  refine ⟨before.length, value, name, by simp, hname, ?_, ?_, rfl⟩
  · rwa [List.take_left]
  · intro stage hfills
    cases hstage.symm.trans ((fills_iff_of_ofValue hvalue).1 hfills)

/-! ## Definitions and values -/

/-- Building from values, with pipelines for plain names that no step has. -/
def buildNested (cookbook : Cookbook) (values : List Value) :
    Except CookbookError (Pipeline Transform) := do
  let specifiers ← (specifiersOf 0 values).mapError .config
  (cookbook.build (specifiers.map cookbook.nested)).mapError .notFound

theorem buildNested_of_ok {values : List Value} {specifiers : List Specifier}
    (h : specifiersOf 0 values = .ok specifiers) :
    cookbook.buildNested values =
      (cookbook.build (specifiers.map cookbook.nested)).mapError .notFound := by
  rw [buildNested, h]
  rfl

theorem buildNested_of_error {values : List Value} {error : ConfigError}
    (h : specifiersOf 0 values = .error error) :
    cookbook.buildNested values = .error (.config error) := by
  rw [buildNested, h]
  rfl

theorem buildsNested_buildNested (cookbook : Cookbook) (values : List Value) :
    cookbook.BuildsNested values (cookbook.buildNested values) := by
  cases hread : specifiersOf 0 values with
  | error error =>
      obtain ⟨index, value, reason, hvalue, hearlier, hreason, rfl⟩ := exists_misshapen hread
      rw [buildNested_of_error hread, Nat.zero_add]
      exact .misshapen hvalue hearlier hreason
  | ok specifiers =>
      have hvalues := specifiersOf_eq_ok_iff.1 hread
      rw [buildNested_of_ok hread, build, Specifier.pipeline]
      cases hstages : (specifiers.map cookbook.nested).mapM (Specifier.stage cookbook.steps) with
      | ok stages =>
          exact .built (forall₂_fills_of_build hvalues hstages)
      | error error =>
          obtain ⟨index, value, name, hvalue, hname, hearlier, hnone, rfl⟩ :=
            exists_unknown_of_build hvalues hstages
          exact .unknown (exists_forall₂_iff.1 ⟨_, hvalues⟩) hvalue hname hearlier hnone

theorem map_nested_eq_self {values : List Value} {specifiers : List Specifier}
    (hread : List.Forall₂ (fun value specifier => Specifier.ofValue value = .ok specifier) values
      specifiers)
    (h : ∀ value ∈ values, ∀ name, value.plainName? = some name →
      name ∉ cookbook.steps.names → name ∉ cookbook.pipelines.names) :
    specifiers.map cookbook.nested = specifiers := by
  induction hread with
  | nil => rfl
  | @cons value specifier values specifiers hvalue _ ih =>
      rw [List.forall_mem_cons] at h
      have hsame : cookbook.nested specifier = specifier := by
        obtain ⟨name, -, rfl | ⟨args, kwargs, rfl⟩⟩ :=
          Specifier.named_or_overridden_of_ofValue hvalue
        · by_cases hmem : name ∈ cookbook.steps.names
          · exact nested_of_mem hmem
          · have hname := h.1 name (Specifier.ofValue_eq_named_iff.1 hvalue) hmem
            exact nested_of_get?_eq_none (Registry.get?_eq_none_iff.2 hname)
        · rfl
      rw [List.map_cons, hsame, ih h.2]

/-- Where no plain name is that of a pipeline alone, the values are all that there is to it. -/
theorem buildNested_eq_buildFromValues {values : List Value}
    (h : ∀ value ∈ values, ∀ name, value.plainName? = some name →
      name ∉ cookbook.steps.names → name ∉ cookbook.pipelines.names) :
    cookbook.buildNested values = cookbook.buildFromValues values := by
  unfold buildFromValues
  cases hread : specifiersOf 0 values with
  | error error => exact buildNested_of_error hread
  | ok specifiers =>
      rw [buildNested_of_ok hread, map_nested_eq_self (specifiersOf_eq_ok_iff.1 hread) h]
      rfl

/-- Documents that are values are read like them. -/
theorem specifiersOfDocuments_of_values {documents : List Document} {values : List Value}
    (hvalues : List.Forall₂ (fun document value => document.toValue = .ok value) documents values)
    (position : Nat) :
    cookbook.specifiersOfDocuments position documents =
      (specifiersOf position values).map (List.map cookbook.nested) := by
  induction hvalues generalizing position with
  | nil => rfl
  | @cons document value documents values hvalue _ ih =>
      have hfirst : cookbook.specifierOf position document =
          ((Specifier.ofValue value).mapError fun error =>
            (ConfigError.specifier none error).atPosition position) >>= fun specifier =>
            pure (cookbook.nested specifier) := by
        rw [specifierOf, hvalue]
        rfl
      rw [specifiersOfDocuments, specifiersOf, hfirst, ih]
      cases Specifier.ofValue value with
      | error error => rfl
      | ok specifier => cases specifiersOf (position + 1) values <;> rfl

/-- What comes of the definition of a pipeline called `name`, told by what comes of building it: the
    stages are registered under the name and with it, or the definition is refused and nothing
    changes. -/
inductive Mirrors (before : Cookbook) (name : String) (applied : Applied) :
    Except CookbookError (Pipeline Transform) → Prop
  | built {pipeline : Pipeline Transform} (hresult : applied.result = .ok ())
      (hsteps : applied.cookbook.steps = before.steps)
      (hpipelines : applied.cookbook.pipelines =
        before.pipelines.insert name ⟨some name, pipeline.stages⟩) :
      Mirrors before name applied (.ok pipeline)
  | misshapen {error : ConfigError} (hresult : applied.result = .error (.pipeline name error))
      (hcookbook : applied.cookbook = before) :
      Mirrors before name applied (.error (.config error))
  | unknown {error : NotFound}
      (hresult : applied.result = .error (.pipeline name (.unknownReference name error)))
      (hcookbook : applied.cookbook = before) :
      Mirrors before name applied (.error (.notFound error))

theorem Mirrors.result_ne_ok {before : Cookbook} {name : String} {applied : Applied}
    {error : CookbookError} (h : Mirrors before name applied (.error error)) :
    applied.result ≠ .ok () := by
  intro hresult
  cases h with
  | misshapen h _ => cases hresult.symm.trans h
  | unknown h _ => cases hresult.symm.trans h

variable {config : Config} {origin : String} {count : Nat} {definition : PipelineDefinition}
  {values : List Value}

theorem mirrors_buildNested
    (hbefore : (cookbook.apply (config.take count) origin).result = .ok ())
    (hdefinition : config.definitions[count]? = some (.pipeline definition))
    (hvalues : List.Forall₂ (fun document value => document.toValue = .ok value) definition.steps
      values) :
    Mirrors (cookbook.apply (config.take count) origin).cookbook definition.name
      (cookbook.apply (config.take (count + 1)) origin)
      ((cookbook.apply (config.take count) origin).cookbook.buildNested values) := by
  generalize hbook : (cookbook.apply (config.take count) origin).cookbook = before
  have hdocuments : before.specifiersOfDocuments 0 definition.steps =
      (specifiersOf 0 values).map (List.map before.nested) :=
    specifiersOfDocuments_of_values hvalues 0
  have hrefused : ∀ error, before.pipelineOf definition = .error error →
      (cookbook.apply (config.take (count + 1)) origin).result =
          .error (.pipeline definition.name error) ∧
        (cookbook.apply (config.take (count + 1)) origin).cookbook = before := by
    intro error h
    have hdefine := define_pipeline_of_error h
    rw [← hbook] at hdefine ⊢
    exact apply_take_add_one_of_error hbefore hdefinition hdefine
  cases hread : specifiersOf 0 values with
  | error error =>
      have hpipeline : before.pipelineOf definition = .error error := by
        rw [pipelineOf, hdocuments, hread]
        rfl
      rw [buildNested_of_error hread]
      obtain ⟨hresult, hcookbook⟩ := hrefused error hpipeline
      exact .misshapen hresult hcookbook
  | ok specifiers =>
      rw [buildNested_of_ok hread]
      rw [hread] at hdocuments
      cases hbuild : before.build (specifiers.map before.nested) with
      | error error =>
          have hpipeline : before.pipelineOf definition =
              .error (.unknownReference definition.name error) := by
            simp only [pipelineOf, bind_eq_error_iff, mapError_eq_error_iff]
            exact Or.inr ⟨_, hdocuments, Or.inl ⟨error, hbuild, rfl⟩⟩
          obtain ⟨hresult, hcookbook⟩ := hrefused _ hpipeline
          exact .unknown hresult hcookbook
      | ok pipeline =>
          have hpipeline : before.pipelineOf definition = .ok (pipeline.named definition.name) := by
            simp only [pipelineOf, bind_eq_ok_iff, mapError_eq_ok_iff, pure_eq_ok_iff]
            exact ⟨_, hdocuments, pipeline, hbuild, rfl⟩
          have hdefine := define_pipeline_eq_ok_iff.2 ⟨_, hpipeline, rfl⟩
          rw [← hbook] at hdefine
          obtain ⟨hresult, hcookbook⟩ := apply_take_add_one_of_ok hbefore hdefinition hdefine
          rw [hbook] at hcookbook
          exact .built hresult (by rw [hcookbook]; rfl) (by rw [hcookbook]; rfl)

/-! ## Pipelines of the same configuration -/

/-- The pipelines that are there behind the first `count` definitions: of those that these define
    each is as its last definition has made it when it was applied, and all others are as before. -/
structure SeesEarlier (cookbook : Cookbook) (config : Config) (origin : String) (count : Nat) :
    Prop where
  inherited : ∀ name, (∀ other, .pipeline other ∈ config.definitions.take count →
      other.name ≠ name) →
    (cookbook.apply (config.take count) origin).cookbook.pipelines.get? name =
      cookbook.pipelines.get? name
  latest : ∀ first other later,
    config.definitions.take count = first ++ .pipeline other :: later →
    (∀ again, .pipeline again ∈ later → again.name ≠ other.name) →
    ∃ pipeline,
      (cookbook.apply (config.take first.length) origin).cookbook.pipelineOf other =
        .ok pipeline ∧
      (cookbook.apply (config.take count) origin).cookbook.pipelines.get? other.name =
        some pipeline

theorem seesEarlier (hbefore : (cookbook.apply (config.take count) origin).result = .ok ()) :
    cookbook.SeesEarlier config origin count where
  inherited name h := by
    rw [cookbook_apply_take]
    exact get?_pipelines_defineAll h
  latest first other later hsplit hlater := by
    have hfirst : config.definitions.take first.length = first := by
      have htake := congrArg (List.take first.length) hsplit
      have hle : first.length ≤ count := by
        have hlength := congrArg List.length hsplit
        rw [List.length_append, List.length_take, List.length_cons] at hlength
        omega
      rwa [List.take_take, Nat.min_eq_left hle, List.take_left] at htake
    rw [result_apply, Config.definitions_take, hsplit] at hbefore
    rw [cookbook_apply_take, cookbook_apply_take, hfirst, hsplit]
    rw [List.append_cons, defineAll_append, Applied.result_andThen_eq_ok_iff] at hbefore
    obtain ⟨pipeline, hpipeline, hstays⟩ := exists_pipelineOf_of_defineAll hbefore.1
    exact ⟨pipeline, hpipeline, hstays later hlater⟩

/-! ## What comes of the definition of a pipeline -/

theorem BuildsNested.exists_eq_error {built : Except CookbookError (Pipeline Transform)}
    (h : cookbook.BuildsNested values built) (hmem : value ∈ values)
    (hnone : ∀ stage, ¬cookbook.Fills value stage) : ∃ error, built = .error error := by
  cases h with
  | built hstages =>
      obtain ⟨stage, hstage⟩ := exists_forall₂_iff.1 ⟨_, hstages⟩ value hmem
      exact absurd hstage (hnone stage)
  | misshapen _ _ _ => exact ⟨_, rfl⟩
  | unknown _ _ _ _ _ => exact ⟨_, rfl⟩

/-- If the name of a value is the first one that is not known, it decides. -/
theorem BuildsNested.eq_unknown {built : Except CookbookError (Pipeline Transform)}
    (h : cookbook.BuildsNested values built) {index : Nat} {name : String}
    (hshape : ∀ other ∈ values, ∃ specifier, Specifier.ofValue other = .ok specifier)
    (hvalue : values[index]? = some value) (hname : value.leadingName? = some name)
    (hearlier : ∀ earlier ∈ values.take index, ∃ stage, cookbook.Fills earlier stage)
    (hnone : ∀ stage, ¬cookbook.Fills value stage) : built = .error (.notFound ⟨.step, name⟩) := by
  have hmem : value ∈ values := List.mem_of_getElem? hvalue
  cases h with
  | built hstages =>
      obtain ⟨stage, hstage⟩ := exists_forall₂_iff.1 ⟨_, hstages⟩ value hmem
      exact absurd hstage (hnone stage)
  | misshapen hother _ hmisshapen =>
      obtain ⟨specifier, hspecifier⟩ := hshape _ (List.mem_of_getElem? hother)
      cases hspecifier.symm.trans hmisshapen
  | @unknown other value' name' _ hvalue' hname' hearlier' hnone' =>
      -- neither of the two comes before the other
      have hbefore : ∀ {few many : Nat} {value : Value}, few < many → values[few]? = some value →
          value ∈ values.take many := by
        intro few many value hlt hvalue
        exact List.mem_of_getElem? ((List.getElem?_take_of_lt hlt).trans hvalue)
      rcases Nat.lt_trichotomy index other with hlt | rfl | hlt
      · obtain ⟨stage, hstage⟩ := hearlier' value (hbefore hlt hvalue)
        exact absurd hstage (hnone stage)
      · obtain rfl := Option.some.inj (hvalue.symm.trans hvalue')
        obtain rfl := Option.some.inj (hname.symm.trans hname')
        rfl
      · obtain ⟨stage, hstage⟩ := hearlier value' (hbefore hlt hvalue')
        exact absurd hstage (hnone' stage)

/-- **The definition of a pipeline and building from values.** Let the first `count` definitions of
    a configuration be of use, and let the next be that of a pipeline whose documents are values.
    If no plain name among them is that of a pipeline and of no step, the definition gives what
    building from these values gives, stages and refusals alike. In any case it gives what building
    does that puts pipelines in the places of such names. A step comes before a pipeline of the same
    name; overrides, even none in a map of them, are for steps alone; and of the pipelines that the
    configuration defines, the earlier ones are found. -/
theorem apply_mirrors_build
    (hbefore : (cookbook.apply (config.take count) origin).result = .ok ())
    (hdefinition : config.definitions[count]? = some (.pipeline definition))
    (hvalues : List.Forall₂ (fun document value => document.toValue = .ok value) definition.steps
      values) :
    let before := (cookbook.apply (config.take count) origin).cookbook
    let applied := cookbook.apply (config.take (count + 1)) origin
    ((∀ value ∈ values, ∀ name, value.plainName? = some name →
        name ∉ before.steps.names → name ∉ before.pipelines.names) →
      before.Mirrors definition.name applied (before.buildFromValues values)) ∧
    (∃ built, before.BuildsNested values built ∧ before.Mirrors definition.name applied built) ∧
    (∀ value name step stage, value.plainName? = some name →
      before.steps.get? name = some step → (before.Fills value stage ↔ stage = .step step)) ∧
    (∀ index value name args kwargs, values[index]? = some value →
      Specifier.ofValue value = .ok (.overridden name args kwargs) →
      name ∉ before.steps.names →
      applied.result ≠ .ok () ∧
      ((∀ other ∈ values, ∃ specifier, Specifier.ofValue other = .ok specifier) →
        (∀ earlier ∈ values.take index, ∃ stage, before.Fills earlier stage) →
        applied.result = .error
          (.pipeline definition.name (.unknownReference definition.name ⟨.step, name⟩)))) ∧
    cookbook.SeesEarlier config origin count := by
  intro before applied
  have hbuilds := before.buildsNested_buildNested values
  have hmirrors : before.Mirrors definition.name applied (before.buildNested values) :=
    mirrors_buildNested hbefore hdefinition hvalues
  refine ⟨?_, ⟨_, hbuilds, hmirrors⟩, fun _ _ _ _ => fills_iff_of_step, ?_, seesEarlier hbefore⟩
  · intro hplain
    rwa [buildNested_eq_buildFromValues hplain] at hmirrors
  · intro index value name args kwargs hvalue hspecifier hname
    have hnone := not_fills_of_overridden hspecifier hname
    constructor
    · obtain ⟨error, herror⟩ := hbuilds.exists_eq_error (List.mem_of_getElem? hvalue) hnone
      rw [herror] at hmirrors
      exact hmirrors.result_ne_ok
    · intro hshape hearlier
      obtain ⟨_, hleading, h | ⟨_, _, h⟩⟩ := Specifier.named_or_overridden_of_ofValue hspecifier
      · cases h
      · obtain ⟨rfl, -, -⟩ := Specifier.overridden.inj h
        rw [hbuilds.eq_unknown hshape hvalue hleading hearlier hnone] at hmirrors
        cases hmirrors with
        | unknown hresult _ => exact hresult

/-- Behind a step that has the name of a pipeline and a pipeline stands the pipeline once more, with
    no override in a map. -/
theorem apply_refuses_overridden_inner :
    let config : Config := ⟨[], [⟨"inner", [.text "sha256_hex"]⟩, ⟨"sha256", [.text "inner"]⟩,
      ⟨"outer", [.text "sha256", .text "inner",
        .sequence [.text "inner", .null, .mapping []]]⟩]⟩
    (withCatalogue.cookbook.apply (config.take 2) inlineOrigin).result = .ok () ∧
      (withCatalogue.cookbook.apply (config.take 3) inlineOrigin).result =
        .error (.pipeline "outer" (.unknownReference "outer" ⟨.step, "inner"⟩)) := by
  intro config
  let before := (withCatalogue.cookbook.apply (config.take 2) inlineOrigin).cookbook
  let overridden : Value := .list [.text "inner", .null, .map Dict.empty]
  have hbefore : (withCatalogue.cookbook.apply (config.take 2) inlineOrigin).result = .ok () := rfl
  have hvalues : List.Forall₂ (fun document value => Document.toValue document = .ok value)
      [.text "sha256", .text "inner", .sequence [.text "inner", .null, .mapping []]]
      [.text "sha256", .text "inner", overridden] :=
    .cons rfl (.cons rfl (.cons rfl .nil))
  have hinner : "inner" ∉ before.steps.names := by decide
  have hshape : ∀ other ∈ [Value.text "sha256", .text "inner", overridden],
      ∃ specifier, Specifier.ofValue other = .ok specifier := by
    simp only [List.forall_mem_cons, List.not_mem_nil, false_implies, implies_true, and_true]
    exact ⟨⟨_, rfl⟩, ⟨_, rfl⟩, ⟨_, rfl⟩⟩
  have hearlier : ∀ earlier ∈ [Value.text "sha256", .text "inner"],
      ∃ stage, before.Fills earlier stage := by
    simp only [List.forall_mem_cons, List.not_mem_nil, false_implies, implies_true, and_true]
    exact ⟨⟨_, .step rfl rfl⟩, ⟨_, .pipeline rfl hinner rfl⟩⟩
  obtain ⟨-, -, -, hoverridden, -⟩ := apply_mirrors_build hbefore rfl hvalues
  exact ⟨hbefore, (hoverridden 2 overridden "inner" none (some Dict.empty) rfl rfl hinner).2 hshape
    hearlier⟩

end Pipework.Cookbook
