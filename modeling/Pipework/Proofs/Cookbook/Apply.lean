import Pipework.Proofs.Cookbook.Definition

set_option autoImplicit false

/-! # Configurations up to their first unusable definition

A configuration is applied one definition after the other, so a part of it at its beginning can be
applied by itself (`Config.take`). If a definition is unusable in the cookbook that those before it
make, it is that cookbook which is left: neither it nor anything after it is registered
(`Cookbook.StopsAt`). What is registered is announced, and the end is reported only if it is reached
(`Cookbook.apply_stops_at_first_unusable`). -/

namespace Pipework

/-! ## One list of definitions after another -/

/-- What comes of going on in the cookbook that is there, if there was no error. -/
def Applied.andThen (applied : Applied) (next : Cookbook → Applied) : Applied :=
  match applied.result with
  | .error _ => applied
  | .ok _ =>
    let rest := next applied.cookbook
    { rest with messages := applied.messages ++ rest.messages }

theorem Applied.andThen_of_ok {applied : Applied} (h : applied.result = .ok ())
    (next : Cookbook → Applied) :
    applied.andThen next = { next applied.cookbook with
      messages := applied.messages ++ (next applied.cookbook).messages } := by
  simp only [andThen, h]

theorem Applied.andThen_of_error {applied : Applied} {error : ConfigError}
    (h : applied.result = .error error) (next : Cookbook → Applied) :
    applied.andThen next = applied := by
  simp only [andThen, h]

theorem Applied.result_andThen_eq_ok_iff {applied : Applied} {next : Cookbook → Applied} :
    (applied.andThen next).result = .ok () ↔
      applied.result = .ok () ∧ (next applied.cookbook).result = .ok () := by
  cases h : applied.result with
  | error error => simp only [andThen_of_error h, h, reduceCtorEq, false_and]
  | ok _ => simp only [andThen_of_ok h, true_and]

namespace Cookbook

variable {cookbook : Cookbook} {definitions : List Definition}

theorem defineAll_cons_of_ok {definition : Definition} {change : Change}
    (h : cookbook.define definition = .ok change) (rest : List Definition) :
    cookbook.defineAll (definition :: rest) = { change.cookbook.defineAll rest with
      messages := change.messages ++ (change.cookbook.defineAll rest).messages } := by
  simp only [defineAll, h]

theorem defineAll_cons_of_error {definition : Definition} {error : ConfigError}
    (h : cookbook.define definition = .error error) (rest : List Definition) :
    cookbook.defineAll (definition :: rest) = ⟨.error error, cookbook, []⟩ := by
  simp only [defineAll, h]

theorem result_defineAll_cons_eq_ok_iff {definition : Definition} {rest : List Definition} :
    (cookbook.defineAll (definition :: rest)).result = .ok () ↔
      ∃ change, cookbook.define definition = .ok change ∧
        (change.cookbook.defineAll rest).result = .ok () := by
  cases hdefine : cookbook.define definition with
  | error error =>
      simp only [defineAll_cons_of_error hdefine, reduceCtorEq, false_and, exists_false]
  | ok change => simp only [defineAll_cons_of_ok hdefine, Except.ok.injEq, exists_eq_left']

theorem defineAll_append (first second : List Definition) :
    cookbook.defineAll (first ++ second) =
      (cookbook.defineAll first).andThen (·.defineAll second) := by
  induction first generalizing cookbook with
  | nil => rfl
  | cons definition rest ih =>
      rw [List.cons_append]
      cases hdefine : cookbook.define definition with
      | error e => simp only [defineAll_cons_of_error hdefine, Applied.andThen]
      | ok change =>
          rw [defineAll_cons_of_ok hdefine, defineAll_cons_of_ok hdefine, ih]
          cases hrest : (change.cookbook.defineAll rest).result <;>
            simp only [Applied.andThen, hrest, List.append_assoc]

/-- Up to the first definition that is refused, all are registered. -/
theorem exists_refused {error : ConfigError}
    (h : (cookbook.defineAll definitions).result = .error error) :
    ∃ first definition rest, definitions = first ++ definition :: rest ∧
      (cookbook.defineAll first).result = .ok () ∧
      (cookbook.defineAll first).cookbook.define definition = .error error := by
  induction definitions generalizing cookbook with
  | nil => cases h
  | cons definition rest ih =>
      cases hdefine : cookbook.define definition with
      | error e =>
          rw [defineAll_cons_of_error hdefine] at h
          obtain rfl := Except.error.inj h
          exact ⟨[], definition, rest, rfl, rfl, hdefine⟩
      | ok change =>
          rw [defineAll_cons_of_ok hdefine] at h
          obtain ⟨first, refused, others, rfl, hok, herror⟩ := ih h
          refine ⟨definition :: first, refused, others, rfl, ?_⟩
          rw [defineAll_cons_of_ok hdefine]
          exact ⟨hok, herror⟩

theorem defineAll_of_refused {first rest : List Definition} {definition : Definition}
    {error : ConfigError} (hok : (cookbook.defineAll first).result = .ok ())
    (herror : (cookbook.defineAll first).cookbook.define definition = .error error) :
    cookbook.defineAll (first ++ definition :: rest) =
      ⟨.error error, (cookbook.defineAll first).cookbook, (cookbook.defineAll first).messages⟩ := by
  rw [defineAll_append, Applied.andThen_of_ok hok, defineAll_cons_of_error herror, List.append_nil]

theorem result_take_of_le {few many : Nat} (hle : few ≤ many)
    (h : (cookbook.defineAll (definitions.take many)).result = .ok ()) :
    (cookbook.defineAll (definitions.take few)).result = .ok () := by
  have hsplit : definitions.take many =
      definitions.take few ++ (definitions.take many).drop few := by
    conv_lhs => rw [← List.take_append_drop few (definitions.take many)]
    rw [List.take_take, Nat.min_eq_left hle]
  rw [hsplit, defineAll_append] at h
  exact (Applied.result_andThen_eq_ok_iff.1 h).1

/-- One definition more is registered only if it is usable, and then it is announced after those
    before it. -/
theorem defineAll_take_add_one {count : Nat} {definition : Definition}
    (hdefinition : definitions[count]? = some definition)
    (h : (cookbook.defineAll (definitions.take (count + 1))).result = .ok ()) :
    definition.Usable (cookbook.defineAll (definitions.take count)).cookbook ∧
      (cookbook.defineAll (definitions.take (count + 1))).messages =
        (cookbook.defineAll (definitions.take count)).messages ++
          [definition.announcement (cookbook.defineAll (definitions.take count)).cookbook] := by
  rw [List.take_add_one, hdefinition, Option.toList_some] at h ⊢
  rw [defineAll_append, Applied.result_andThen_eq_ok_iff, result_defineAll_cons_eq_ok_iff] at h
  obtain ⟨hbefore, change, hdefine, -⟩ := h
  refine ⟨exists_define_iff.1 ⟨change, hdefine⟩, ?_⟩
  rw [defineAll_append, Applied.andThen_of_ok hbefore, defineAll_cons_of_ok hdefine,
    messages_of_define_eq_ok hdefine]
  rfl

/-- **The invariant of a list of definitions**: what each of them keeps, all of them keep, also if
    one is refused. -/
theorem defineAll_induction {P : Cookbook → Prop}
    (hdefine : ∀ (book : Cookbook) definition change, definition ∈ definitions → P book →
      book.define definition = .ok change → P change.cookbook) (h : P cookbook) :
    P (cookbook.defineAll definitions).cookbook := by
  induction definitions generalizing cookbook with
  | nil => exact h
  | cons definition rest ih =>
      cases hchange : cookbook.define definition with
      | error error =>
          rw [defineAll_cons_of_error hchange]
          exact h
      | ok change =>
          rw [defineAll_cons_of_ok hchange]
          refine ih ?_ (hdefine cookbook definition change List.mem_cons_self h hchange)
          intro book other next hmem
          exact hdefine book other next (List.mem_cons_of_mem _ hmem)

theorem pipelines_defineAll_map_step (steps : List StepDefinition) :
    (cookbook.defineAll (steps.map .step)).cookbook.pipelines = cookbook.pipelines := by
  refine defineAll_induction (P := fun book => book.pipelines = cookbook.pipelines) ?_ rfl
  intro book definition change hmem hbook hchange
  obtain ⟨step, -, rfl⟩ := List.mem_map.1 hmem
  exact (pipelines_of_define_step hchange).trans hbook

theorem steps_defineAll_map_pipeline (pipelines : List PipelineDefinition) :
    (cookbook.defineAll (pipelines.map .pipeline)).cookbook.steps = cookbook.steps := by
  refine defineAll_induction (P := fun book => book.steps = cookbook.steps) ?_ rfl
  intro book definition change hmem hbook hchange
  obtain ⟨pipeline, -, rfl⟩ := List.mem_map.1 hmem
  obtain ⟨_, -, rfl⟩ := define_pipeline_eq_ok_iff.1 hchange
  exact hbook

/-- A step stays as it is if no definition has its name. -/
theorem get?_steps_defineAll {name : String}
    (h : ∀ other, .step other ∈ definitions → other.name ≠ name) :
    (cookbook.defineAll definitions).cookbook.steps.get? name = cookbook.steps.get? name := by
  refine defineAll_induction
    (P := fun book => book.steps.get? name = cookbook.steps.get? name) ?_ rfl
  intro book definition change hmem hbook hchange
  refine (get?_steps_of_define hchange ?_).trans hbook
  rintro other rfl
  exact h other hmem

/-- A pipeline stays as it is if no definition has its name. -/
theorem get?_pipelines_defineAll {name : String}
    (h : ∀ other, .pipeline other ∈ definitions → other.name ≠ name) :
    (cookbook.defineAll definitions).cookbook.pipelines.get? name =
      cookbook.pipelines.get? name := by
  refine defineAll_induction
    (P := fun book => book.pipelines.get? name = cookbook.pipelines.get? name) ?_ rfl
  intro book definition change hmem hbook hchange
  cases definition with
  | step other =>
      rw [pipelines_of_define_step hchange]
      exact hbook
  | pipeline other =>
      obtain ⟨pipeline, -, rfl⟩ := define_pipeline_eq_ok_iff.1 hchange
      exact ((Registry.get?_insert ..).trans (if_neg (h other hmem))).trans hbook

/-- What the definition of a pipeline describes is registered when its turn comes, and stays until a
    later definition replaces it. -/
theorem exists_pipelineOf_of_defineAll {first : List Definition} {definition : PipelineDefinition}
    (hok : (cookbook.defineAll (first ++ [.pipeline definition])).result = .ok ()) :
    ∃ pipeline, (cookbook.defineAll first).cookbook.pipelineOf definition = .ok pipeline ∧
      ∀ later, (∀ again, .pipeline again ∈ later → again.name ≠ definition.name) →
        (cookbook.defineAll (first ++ .pipeline definition :: later)).cookbook.pipelines.get?
          definition.name = some pipeline := by
  rw [defineAll_append, Applied.result_andThen_eq_ok_iff, result_defineAll_cons_eq_ok_iff] at hok
  obtain ⟨hfirst, change, hdefine, -⟩ := hok
  obtain ⟨pipeline, hpipeline, rfl⟩ := define_pipeline_eq_ok_iff.1 hdefine
  refine ⟨pipeline, hpipeline, ?_⟩
  intro later hlater
  rw [defineAll_append, Applied.andThen_of_ok hfirst, defineAll_cons_of_ok hdefine]
  refine (get?_pipelines_defineAll hlater).trans ?_
  exact (Registry.get?_insert ..).trans (if_pos rfl)

end Cookbook

/-! ## The first definitions of a configuration -/

/-- The configuration with no more than the first `count` definitions. -/
def Config.take (config : Config) (count : Nat) : Config :=
  ⟨config.steps.take count, config.pipelines.take (count - config.steps.length)⟩

theorem Config.definitions_take (config : Config) (count : Nat) :
    (config.take count).definitions = config.definitions.take count := by
  simp only [take, definitions, List.take_append, List.map_take, List.length_map]

theorem Config.definitions_eq_append {config : Config} {count : Nat} {definition : Definition}
    (h : config.definitions[count]? = some definition) :
    config.definitions =
      config.definitions.take count ++ definition :: config.definitions.drop (count + 1) := by
  obtain ⟨hcount, rfl⟩ := List.getElem?_eq_some_iff.1 h
  rw [List.getElem_cons_drop, List.take_append_drop]

namespace Cookbook

variable {cookbook : Cookbook} {config : Config} {origin : String} {count : Nat}

theorem apply_of_ok (h : (cookbook.defineAll config.definitions).result = .ok ()) :
    cookbook.apply config origin = { cookbook.defineAll config.definitions with
      messages := (cookbook.defineAll config.definitions).messages ++
        [.cookbookLoaded origin config.steps.length config.pipelines.length] } := by
  simp only [apply, h]

theorem apply_of_error {error : ConfigError}
    (h : (cookbook.defineAll config.definitions).result = .error error) :
    cookbook.apply config origin = cookbook.defineAll config.definitions := by
  simp only [apply, h]

theorem result_apply :
    (cookbook.apply config origin).result = (cookbook.defineAll config.definitions).result := by
  cases h : (cookbook.defineAll config.definitions).result with
  | error e => rw [apply_of_error h, h]
  | ok _ => rw [apply_of_ok h, h]

theorem cookbook_apply :
    (cookbook.apply config origin).cookbook = (cookbook.defineAll config.definitions).cookbook := by
  cases h : (cookbook.defineAll config.definitions).result with
  | error e => rw [apply_of_error h]
  | ok _ => rw [apply_of_ok h]

theorem cookbook_apply_take (origin : String) :
    (cookbook.apply (config.take count) origin).cookbook =
      (cookbook.defineAll (config.definitions.take count)).cookbook := by
  rw [cookbook_apply, Config.definitions_take]

theorem apply_take_add_one_of_ok {definition : Definition} {change : Change}
    (hbefore : (cookbook.apply (config.take count) origin).result = .ok ())
    (hdefinition : config.definitions[count]? = some definition)
    (h : (cookbook.apply (config.take count) origin).cookbook.define definition = .ok change) :
    (cookbook.apply (config.take (count + 1)) origin).result = .ok () ∧
      (cookbook.apply (config.take (count + 1)) origin).cookbook = change.cookbook := by
  rw [result_apply, Config.definitions_take] at hbefore
  rw [cookbook_apply_take] at h
  rw [result_apply, cookbook_apply_take, Config.definitions_take, List.take_add_one, hdefinition,
    Option.toList_some, defineAll_append, Applied.andThen_of_ok hbefore, defineAll_cons_of_ok h]
  exact ⟨rfl, rfl⟩

theorem apply_take_add_one_of_error {definition : Definition} {error : ConfigError}
    (hbefore : (cookbook.apply (config.take count) origin).result = .ok ())
    (hdefinition : config.definitions[count]? = some definition)
    (h : (cookbook.apply (config.take count) origin).cookbook.define definition = .error error) :
    (cookbook.apply (config.take (count + 1)) origin).result = .error error ∧
      (cookbook.apply (config.take (count + 1)) origin).cookbook =
        (cookbook.apply (config.take count) origin).cookbook := by
  rw [result_apply, Config.definitions_take] at hbefore
  rw [cookbook_apply_take] at h
  rw [result_apply, cookbook_apply_take, cookbook_apply_take, Config.definitions_take,
    List.take_add_one, hdefinition, Option.toList_some, defineAll_of_refused hbefore h]
  exact ⟨rfl, rfl⟩

/-- Each of the first `count` definitions is usable in the cookbook that those before it make, and
    `messages` announces each of them, in order. -/
structure Registers (cookbook : Cookbook) (config : Config) (origin : String) (count : Nat)
    (messages : List Message) : Prop where
  length_eq : messages.length = count
  usable : ∀ index definition, index < count → config.definitions[index]? = some definition →
    definition.Usable (cookbook.apply (config.take index) origin).cookbook
  announces : ∀ index definition, index < count → config.definitions[index]? = some definition →
    messages[index]? =
      some (definition.announcement (cookbook.apply (config.take index) origin).cookbook)

theorem registers_of_ok (origin : String) (hcount : count ≤ config.definitions.length)
    (h : (cookbook.defineAll (config.definitions.take count)).result = .ok ()) :
    cookbook.Registers config origin count
      (cookbook.defineAll (config.definitions.take count)).messages := by
  induction count with
  | zero => exact ⟨rfl, nofun, nofun⟩
  | succ count ih =>
      have hbefore := ih (Nat.le_of_succ_le hcount) (result_take_of_le (Nat.le_add_right count 1) h)
      have hlast := List.getElem?_eq_getElem (l := config.definitions) hcount
      obtain ⟨husable, hmessages⟩ := defineAll_take_add_one hlast h
      rw [← cookbook_apply_take origin] at husable hmessages
      rw [hmessages]
      refine ⟨by rw [List.length_append, hbefore.length_eq, List.length_singleton], ?_, ?_⟩
      · intro index definition hindex hdefinition
        rcases Nat.lt_succ_iff_lt_or_eq.1 hindex with hlt | rfl
        · exact hbefore.usable index definition hlt hdefinition
        · obtain rfl := Option.some.inj (hlast.symm.trans hdefinition)
          exact husable
      · intro index definition hindex hdefinition
        rcases Nat.lt_succ_iff_lt_or_eq.1 hindex with hlt | rfl
        · rw [List.getElem?_append_left (hbefore.length_eq.symm ▸ hlt)]
          exact hbefore.announces index definition hlt hdefinition
        · obtain rfl := Option.some.inj (hlast.symm.trans hdefinition)
          rw [List.getElem?_append_right (Nat.le_of_eq hbefore.length_eq), hbefore.length_eq,
            Nat.sub_self]
          rfl

theorem Registers.not_loaded {messages : List Message}
    (h : cookbook.Registers config origin count messages)
    (hcount : count ≤ config.definitions.length) {source : String} {steps pipelines : Nat} :
    .cookbookLoaded source steps pipelines ∉ messages := by
  intro hmem
  obtain ⟨index, hindex⟩ := List.mem_iff_getElem?.1 hmem
  have hlt : index < count := h.length_eq ▸ (List.getElem?_eq_some_iff.1 hindex).1
  have hdefinition := List.getElem?_eq_getElem (Nat.lt_of_lt_of_le hlt hcount)
  rw [h.announces index _ hlt hdefinition] at hindex
  exact Definition.announcement_ne_loaded (Option.some.inj hindex)

/-! ## Configurations that stop -/

/-- The definition after the first `count` is the first that is unusable, and `error` is about it.
    What is left is what comes of applying those before it, which are announced; if it is the
    definition of a step, there are no new pipelines. -/
structure StopsAt (cookbook : Cookbook) (config : Config) (origin : String) (count : Nat)
    (error : ConfigError) : Prop where
  refused : ∃ definition, config.definitions[count]? = some definition ∧
    ¬definition.Usable (cookbook.apply (config.take count) origin).cookbook ∧
      definition.Blames error
  registers : cookbook.Registers config origin count (cookbook.apply config origin).messages
  result_take : (cookbook.apply (config.take count) origin).result = .ok ()
  cookbook_eq :
    (cookbook.apply config origin).cookbook = (cookbook.apply (config.take count) origin).cookbook
  pipelines_eq : count < config.steps.length →
    (cookbook.apply config origin).cookbook.pipelines = cookbook.pipelines

theorem exists_stopsAt (origin : String) {error : ConfigError}
    (h : (cookbook.defineAll config.definitions).result = .error error) :
    ∃ count, count ≤ config.definitions.length ∧ cookbook.StopsAt config origin count error := by
  obtain ⟨first, definition, rest, hsplit, hok, herror⟩ := exists_refused h
  have happly : cookbook.apply config origin =
      ⟨.error error, (cookbook.defineAll first).cookbook, (cookbook.defineAll first).messages⟩ := by
    rw [apply_of_error h, hsplit, defineAll_of_refused hok herror]
  have hfirst : config.definitions.take first.length = first := by
    rw [hsplit, List.take_left]
  have hcount : first.length ≤ config.definitions.length := by
    rw [hsplit, List.length_append]
    exact Nat.le_add_right ..
  have htake : (cookbook.apply (config.take first.length) origin).cookbook =
      (cookbook.defineAll first).cookbook := by
    rw [cookbook_apply_take origin, hfirst]
  have hdefinition : config.definitions[first.length]? = some definition := by
    rw [hsplit, List.getElem?_append_right (Nat.le_refl _), Nat.sub_self]
    rfl
  refine ⟨first.length, hcount, ?_, ?_, ?_, ?_, ?_⟩
  · refine ⟨definition, hdefinition, ?_, ?_⟩
    · rw [htake, ← exists_define_iff, herror]
      rintro ⟨change, hchange⟩
      cases hchange
    · exact blames_of_define_eq_error herror
  · have hregisters := registers_of_ok origin hcount (hfirst.symm ▸ hok)
    rwa [hfirst, ← congrArg Applied.messages happly] at hregisters
  · rw [result_apply, Config.definitions_take, hfirst, hok]
  · rw [htake, happly]
  · intro hstep
    have hsteps : first = (config.steps.take first.length).map .step := by
      conv_lhs => rw [← hfirst]
      rw [Config.definitions, List.take_append_of_le_length, List.map_take]
      rw [List.length_map]
      exact Nat.le_of_lt hstep
    rw [happly, hsteps]
    exact pipelines_defineAll_map_step _

/-- **A configuration is applied up to its first unusable definition.** If there is one, the error is
    about it, and everything is as if the configuration ended before it. If there is none, all
    definitions are announced, and the end is reported last; it is reported in no other case. -/
theorem apply_stops_at_first_unusable (cookbook : Cookbook) (config : Config) (origin : String) :
    ((∃ source steps pipelines,
        .cookbookLoaded source steps pipelines ∈ (cookbook.apply config origin).messages) ↔
      (cookbook.apply config origin).result = .ok ()) ∧
    match (cookbook.apply config origin).result with
    | .error error => ∃ count, cookbook.StopsAt config origin count error
    | .ok _ => ∃ announced,
        cookbook.Registers config origin config.definitions.length announced ∧
        (cookbook.apply config origin).messages =
          announced ++ [.cookbookLoaded origin config.steps.length config.pipelines.length] := by
  cases h : (cookbook.defineAll config.definitions).result with
  | error error =>
      obtain ⟨count, hcount, hstops⟩ := exists_stopsAt origin h
      rw [result_apply, h]
      refine ⟨⟨?_, nofun⟩, count, hstops⟩
      rintro ⟨source, steps, pipelines, hmem⟩
      exact absurd hmem (hstops.registers.not_loaded hcount)
  | ok _ =>
      have hregisters := registers_of_ok origin (Nat.le_refl _)
        ((List.take_length (l := config.definitions)).symm ▸ h)
      rw [List.take_length] at hregisters
      rw [apply_of_ok h, h]
      refine ⟨⟨fun _ => rfl, fun _ => ?_⟩, _, hregisters, rfl⟩
      exact ⟨_, _, _, List.mem_append_right _ List.mem_cons_self⟩

/-- The second of three pipelines names a stage that is not registered. -/
example :
    let applied := empty.apply
      ⟨[], [⟨"outer", []⟩, ⟨"broken", [.text "outer", .text "missing"]⟩, ⟨"after", []⟩]⟩ inlineOrigin
    applied.result = .error (.pipeline "broken" (.unknownReference "broken" ⟨.step, "missing"⟩)) ∧
      applied.cookbook.pipelines.names = ["outer"] ∧
      applied.messages = [.templateRegistered "pipeline" "outer" 1] :=
  ⟨rfl, rfl, rfl⟩

end Cookbook

end Pipework
