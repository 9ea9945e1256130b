import Pipework.Proofs.Pipeline.Fold

set_option autoImplicit false

/-! # Nested pipelines and their splice

A pipeline that stands as a bare stage of another one runs as if its stages stood there in its place
(`Pipeline.run_flattened`). Where the splice fails at one position, the nested run fails with a
chain of located failures, one for each level (`RunError.along`), whose positions lead to the same
stage (`LeadsTo`). -/

namespace Pipework

/-! ## Splicing -/

mutual

/-- What stands in the place of a bare transform: the stages of a pipeline, spliced themselves, or
    else the transform. -/
def Transform.spliced (transform : Transform) : List (Stage Transform) :=
  match transform with
  | .builtin builtin => [.bare (.builtin builtin)]
  | .host apply => [.bare (.host apply)]
  | .pipeline ⟨_, stages⟩ => splice stages
termination_by structural transform

/-- The stages with those of nested pipelines in their place, at all depths. -/
def splice (stages : List (Stage Transform)) : List (Stage Transform) :=
  match stages with
  | [] => []
  | .step step :: rest => .step step :: splice rest
  | .bare transform :: rest => transform.spliced ++ splice rest
termination_by structural stages

end

/-- The pipeline with the splice of its stages. -/
def Pipeline.flattened (pipeline : Pipeline Transform) : Pipeline Transform :=
  { pipeline with stages := splice pipeline.stages }

/-- The stages of a pipeline that stands as a bare stage. -/
def Stage.inner? : Stage Transform → Option (List (Stage Transform))
  | .bare (.pipeline pipeline) => some pipeline.stages
  | _ => none

theorem splice_cons_of_none {stage : Stage Transform} (h : stage.inner? = none)
    (rest : List (Stage Transform)) : splice (stage :: rest) = stage :: splice rest := by
  match stage, h with
  | .step step, _ => rfl
  | .bare (.builtin builtin), _ => rfl
  | .bare (.host apply), _ => rfl

theorem splice_cons_of_some {stage : Stage Transform} {inner : List (Stage Transform)}
    (h : stage.inner? = some inner) (rest : List (Stage Transform)) :
    splice (stage :: rest) = splice inner ++ splice rest := by
  match stage, h with
  | .bare (.pipeline ⟨name, stages⟩), h =>
      obtain rfl := Option.some.inj h
      rfl

/-- The pipeline that a transform is. -/
def Transform.pipeline? : Transform → Option (Pipeline Transform)
  | .pipeline inner => some inner
  | _ => none

/-- The pipeline that a stage runs, be the stage bare or a step. -/
def Stage.nested? : Stage Transform → Option (Pipeline Transform)
  | .step s => s.transform.pipeline?
  | .bare transform => transform.pipeline?

/-- Induction over stages and those of the pipelines that they run. -/
@[elab_as_elim]
theorem nested_induction {motive : List (Stage Transform) → Prop} (nil : motive [])
    (leaf : ∀ stage rest, stage.nested? = none → motive rest → motive (stage :: rest))
    (nested : ∀ stage inner rest, stage.nested? = some inner → motive inner.stages → motive rest →
      motive (stage :: rest)) (stages : List (Stage Transform)) : motive stages := by
  -- the recursor of the nested type, which asks of a stage what it asks of its inner stages
  refine @Transform.rec_2 (fun transform => ∀ inner, transform.pipeline? = some inner →
    motive inner.stages) (fun pipeline => motive pipeline.stages) motive
    (fun stage => ∀ inner, stage.nested? = some inner → motive inner.stages)
    (fun step => ∀ inner, step.transform.pipeline? = some inner → motive inner.stages)
    (fun _ => nofun) (fun _ => nofun) ?_ (fun _ _ h => h) nil ?_ (fun _ h => h) (fun _ h => h)
    (fun _ _ _ h => h) stages
  · intro pipeline h inner hinner
    obtain rfl := Option.some.inj hinner
    exact h
  · intro stage rest hstage hrest
    cases hinner : stage.nested? with
    | none => exact leaf stage rest hinner hrest
    | some inner => exact nested stage inner rest hinner (hstage inner hinner) hrest

theorem Stage.nested?_of_inner? {stage : Stage Transform} {inner : List (Stage Transform)}
    (h : stage.inner? = some inner) :
    ∃ pipeline, stage.nested? = some pipeline ∧ pipeline.stages = inner := by
  match stage, h with
  | .bare (.pipeline pipeline), h => exact ⟨pipeline, rfl, Option.some.inj h⟩

/-- Induction over stages and those of the pipelines nested in them as bare stages. -/
@[elab_as_elim]
theorem stages_induction {motive : List (Stage Transform) → Prop} (nil : motive [])
    (leaf : ∀ stage rest, stage.inner? = none → motive rest → motive (stage :: rest))
    (nested : ∀ stage inner rest, stage.inner? = some inner → motive inner → motive rest →
      motive (stage :: rest)) (stages : List (Stage Transform)) : motive stages := by
  have step (stage : Stage Transform) (rest : List (Stage Transform))
      (hstage : ∀ inner, stage.inner? = some inner → motive inner) (hrest : motive rest) :
      motive (stage :: rest) := by
    cases hinner : stage.inner? with
    | none => exact leaf stage rest hinner hrest
    | some inner => exact nested stage inner rest hinner (hstage inner hinner) hrest
  induction stages using nested_induction with
  | nil => exact nil
  | leaf stage rest hnested ih =>
      refine step stage rest (fun inner hinner => ?_) ih
      obtain ⟨pipeline, hpipeline, -⟩ := Stage.nested?_of_inner? hinner
      cases hnested.symm.trans hpipeline
  | nested stage pipeline rest hnested ihInner ihRest =>
      refine step stage rest (fun inner hinner => ?_) ihRest
      obtain ⟨same, hsame, rfl⟩ := Stage.nested?_of_inner? hinner
      obtain rfl := Option.some.inj (hnested.symm.trans hsame)
      exact ihInner

/-- No pipeline is nested in a splice. -/
theorem inner?_of_mem_splice (stages : List (Stage Transform)) :
    ∀ stage ∈ splice stages, stage.inner? = none := by
  induction stages using stages_induction with
  | nil => exact nofun
  | leaf stage rest hinner ih =>
      intro s hs
      rw [splice_cons_of_none hinner] at hs
      rcases List.mem_cons.1 hs with rfl | hs
      · exact hinner
      · exact ih s hs
  | nested stage inner rest hinner ihInner ihRest =>
      intro s hs
      rw [splice_cons_of_some hinner] at hs
      exact (List.mem_append.1 hs).elim (ihInner s) (ihRest s)

theorem splice_append (front back : List (Stage Transform)) :
    splice (front ++ back) = splice front ++ splice back := by
  induction front with
  | nil => rfl
  | cons stage rest ih =>
      rw [List.cons_append]
      cases hinner : stage.inner? with
      | none => rw [splice_cons_of_none hinner, splice_cons_of_none hinner, ih, List.cons_append]
      | some inner =>
          rw [splice_cons_of_some hinner, splice_cons_of_some hinner, ih, List.append_assoc]

/-! ## Paths -/

/-- A path of positions, one for each level, leads from `stages` to a stage that is no pipeline and
    stands at `index` in the splice. -/
inductive LeadsTo : List (Stage Transform) → List Nat → Stage Transform → Nat → Prop
  | here {stages : List (Stage Transform)} {position : Nat} {leaf : Stage Transform}
      (hstage : stages[position]? = some leaf) (hinner : leaf.inner? = none) :
      LeadsTo stages [position] leaf (splice (stages.take position)).length
  | inside {stages inner : List (Stage Transform)} {position : Nat} {stage leaf : Stage Transform}
      {path : List Nat} {index : Nat} (hstage : stages[position]? = some stage)
      (hinner : stage.inner? = some inner) (h : LeadsTo inner path leaf index) :
      LeadsTo stages (position :: path) leaf ((splice (stages.take position)).length + index)

/-- The failure of a stage at the end of a path: at every position but the last a nested pipeline
    failed. -/
def RunError.along (step : Option String) (source : TransformError) : List Nat → RunError
  | [] => ⟨step, none, source⟩
  | [position] => ⟨step, some position, source⟩
  | position :: path => ⟨none, some position, .pipeline (along step source path)⟩

/-- A stage in front shifts a path by one and an index by all that it is replaced by. -/
theorem LeadsTo.cons {stages : List (Stage Transform)} {first : Nat} {path : List Nat}
    {leaf : Stage Transform} {index : Nat} (h : LeadsTo stages (first :: path) leaf index)
    (stage : Stage Transform) :
    LeadsTo (stage :: stages) ((first + 1) :: path) leaf ((splice [stage]).length + index) := by
  have hshift : (splice [stage]).length + (splice (stages.take first)).length =
      (splice ((stage :: stages).take (first + 1))).length := by
    rw [← List.length_append, ← splice_append, List.singleton_append, List.take_succ_cons]
  cases h with
  | here hstage hinner =>
      rw [hshift]
      exact .here hstage hinner
  | inside hstage hinner h =>
      rw [← Nat.add_assoc, hshift]
      exact .inside hstage hinner h

theorem splice_eq_of_getElem? {stages : List (Stage Transform)} {position : Nat}
    {stage : Stage Transform} (h : stages[position]? = some stage) :
    splice stages =
      splice (stages.take position) ++ splice (stage :: stages.drop (position + 1)) := by
  obtain ⟨hposition, rfl⟩ := List.getElem?_eq_some_iff.1 h
  rw [List.getElem_cons_drop, ← splice_append, List.take_append_drop]

/-- A path leads to the stage that stands at its index in the splice. -/
theorem LeadsTo.getElem?_splice {stages : List (Stage Transform)} {path : List Nat}
    {leaf : Stage Transform} {index : Nat} (h : LeadsTo stages path leaf index) :
    (splice stages)[index]? = some leaf := by
  induction h with
  | here hstage hinner =>
      rw [splice_eq_of_getElem? hstage, splice_cons_of_none hinner, List.getElem?_append_right
        (Nat.le_refl _), Nat.sub_self]
      rfl
  | inside hstage hinner _ ih =>
      rw [splice_eq_of_getElem? hstage, splice_cons_of_some hinner, List.getElem?_append_right
        (Nat.le_add_right ..), Nat.add_sub_cancel_left]
      obtain ⟨hindex, -⟩ := List.getElem?_eq_some_iff.1 ih
      rw [List.getElem?_append_left hindex, ih]

/-! ## Runs of both -/

/-- A run of two lists of stages is one of the first and, if that succeeds, one of the second on
    what it leaves. -/
theorem runStages_append (label : String) (position : Nat) (front back : List (Stage Transform))
    (state : Midway) :
    let whole := runStages label position (front ++ back) state.source state.value
    let first := runStages label position front state.source state.value
    (∀ value, first.result = .ok value →
      let second := runStages label (position + front.length) back first.source value
      whole.result = second.result ∧ whole.source = second.source) ∧
    (∀ error, first.result = .error error →
      whole.result = .error error ∧ whole.source = first.source) := by
  induction front generalizing position state with
  | nil =>
      refine ⟨fun value hvalue => ?_, nofun⟩
      obtain rfl := Except.ok.inj hvalue
      exact ⟨rfl, rfl⟩
  | cons stage rest ih =>
      rw [List.cons_append]
      cases hresult : (stage.apply state).result with
      | error e =>
          rw [runStages_cons_of_error hresult, runStages_cons_of_error hresult]
          exact ⟨nofun, fun error herror => ⟨herror, rfl⟩⟩
      | ok value =>
          rw [runStages_cons_of_ok hresult, runStages_cons_of_ok hresult, List.length_cons,
            Nat.add_comm rest.length, ← Nat.add_assoc]
          exact ih (position + 1) ⟨value, (stage.apply state).source⟩

/-- What a run of stages from `position` on and one of their splice from `index` on have in common:
    a value, or a failure of the same stage, and the random bytes that are left. -/
inductive RunsAlike (stages : List (Stage Transform)) (position index : Nat) :
    Outcome RunError → Outcome RunError → Prop
  | ok {nested flat : Outcome RunError} {value : Value} (hnested : nested.result = .ok value)
      (hflat : flat.result = .ok value) (hsource : nested.source = flat.source) :
      RunsAlike stages position index nested flat
  | error {nested flat : Outcome RunError} {first : Nat} {path : List Nat}
      {leaf : Stage Transform} {offset : Nat} {error : TransformError}
      (hleads : LeadsTo stages (first :: path) leaf offset)
      (hnested : nested.result =
        .error (RunError.along leaf.name? error ((position + first) :: path)))
      (hflat : flat.result = .error ⟨leaf.name?, some (index + offset), error⟩)
      (hsource : nested.source = flat.source) : RunsAlike stages position index nested flat

/-- Nothing but results and the random bytes that are left is compared. -/
theorem RunsAlike.of_eq {stages : List (Stage Transform)} {position index : Nat}
    {nested flat nested' flat' : Outcome RunError} (h : RunsAlike stages position index nested flat)
    (hnested : nested'.result = nested.result) (hflat : flat'.result = flat.result)
    (hnestedSource : nested'.source = nested.source) (hflatSource : flat'.source = flat.source) :
    RunsAlike stages position index nested' flat' := by
  cases h with
  | ok hn hf hs =>
      exact .ok (hnested.trans hn) (hflat.trans hf)
        (hnestedSource.trans (hs.trans hflatSource.symm))
  | error hleads hn hf hs =>
      exact .error hleads (hnested.trans hn) (hflat.trans hf)
        (hnestedSource.trans (hs.trans hflatSource.symm))

/-- Runs behind a stage are runs with that stage in front. -/
theorem RunsAlike.cons {rest : List (Stage Transform)} {position index count : Nat}
    {nested flat : Outcome RunError} (stage : Stage Transform)
    (hcount : (splice [stage]).length = count)
    (h : RunsAlike rest (position + 1) (index + count) nested flat) :
    RunsAlike (stage :: rest) position index nested flat := by
  subst hcount
  cases h with
  | ok hnested hflat hsource => exact .ok hnested hflat hsource
  | error hleads hnested hflat hsource =>
      rw [Nat.add_assoc, Nat.add_comm 1] at hnested
      rw [Nat.add_assoc] at hflat
      exact .error (hleads.cons stage) hnested hflat hsource

/-- A nested pipeline runs its stages from position zero on and wraps their failure. -/
theorem Stage.apply_of_inner? {stage : Stage Transform} {inner : List (Stage Transform)}
    (h : stage.inner? = some inner) (state : Midway) :
    ∃ label,
      (stage.apply state).result =
        (runStages label 0 inner state.source state.value).result.mapError .pipeline ∧
      (stage.apply state).source = (runStages label 0 inner state.source state.value).source := by
  match stage, h with
  | .bare (.pipeline ⟨name, stages⟩), h =>
      obtain rfl := Option.some.inj h
      exact ⟨_, rfl, rfl⟩

/-- **The invariant of runs of nested stages,** by induction on the stages that are left and on
    those inside of the first one. -/
theorem runStages_splice (stages : List (Stage Transform)) (label flatLabel : String)
    (position index : Nat) (state : Midway) :
    RunsAlike stages position index (runStages label position stages state.source state.value)
      (runStages flatLabel index (splice stages) state.source state.value) := by
  induction stages using stages_induction generalizing label position index state with
  | nil => exact .ok rfl rfl rfl
  | leaf stage rest hinner ih =>
      rw [splice_cons_of_none hinner]
      cases hresult : (stage.apply state).result with
      | error error =>
          have hleads : LeadsTo (stage :: rest) [0] stage 0 := .here rfl hinner
          rw [runStages_cons_of_error hresult, runStages_cons_of_error hresult]
          exact .error hleads rfl rfl rfl
      | ok value =>
          have hrest := ih label (position + 1) (index + 1) ⟨value, (stage.apply state).source⟩
          have hone : (splice [stage]).length = 1 := by
            rw [splice_cons_of_none hinner]
            rfl
          rw [runStages_cons_of_ok hresult, runStages_cons_of_ok hresult]
          exact (hrest.cons stage hone).of_eq rfl rfl rfl rfl
  | nested stage inner rest hinner ihInner ihRest =>
      obtain ⟨innerLabel, hresult, hsource⟩ := Stage.apply_of_inner? hinner state
      obtain ⟨hok, herror⟩ := runStages_append flatLabel index (splice inner) (splice rest) state
      rw [splice_cons_of_some hinner]
      cases ihInner innerLabel 0 index state with
      | @ok value hnested hflat hleft =>
          have hvalue : (stage.apply state).result = .ok value := by
            rw [hresult, hnested]
            rfl
          have hcount : (splice [stage]).length = (splice inner).length := by
            rw [splice_cons_of_some hinner]
            exact congrArg List.length (List.append_nil _)
          have hrest := ihRest label (position + 1) (index + (splice inner).length)
            ⟨value, (stage.apply state).source⟩
          obtain ⟨hwhole, hwholeSource⟩ := hok value hflat
          rw [← hleft, ← hsource] at hwhole hwholeSource
          rw [runStages_cons_of_ok hvalue]
          exact (hrest.cons stage hcount).of_eq rfl hwhole rfl hwholeSource
      | @error first path leaf offset error hleads hnested hflat hleft =>
          obtain ⟨hwhole, hwholeSource⟩ := herror _ hflat
          have hfailed : (stage.apply state).result =
              .error (.pipeline (RunError.along leaf.name? error (first :: path))) := by
            rw [hresult, hnested, Nat.zero_add]
            rfl
          -- the failure gets one more layer, and the path one more position in front
          have hinside : LeadsTo (stage :: rest) (0 :: first :: path) leaf (0 + offset) :=
            .inside rfl hinner hleads
          have hname : stage.name? = none := by
            match stage, hinner with
            | .bare (.pipeline _), _ => rfl
          rw [Nat.zero_add] at hinside
          rw [runStages_cons_of_error hfailed, hname]
          exact .error hinside rfl hwhole ((hsource.trans hleft).trans hwholeSource.symm)

/-! ## Runs of pipelines -/

/-- **Nested pipelines run as their splice does.** The splice holds no nested pipeline. Both runs
    give the same value, or both fail at the same stage with the same cause: the splice at the
    position of the stage there, the nested run along a path of positions that leads to it, with a
    layer for each pipeline on the way. -/
theorem Pipeline.run_flattened (pipeline : Pipeline Transform) (source : RandomSource)
    (value : Value) :
    let nested := pipeline.run source value
    let flat := pipeline.flattened.run source value
    (∀ stage ∈ pipeline.flattened.stages, stage.inner? = none) ∧
    nested.source = flat.source ∧
    ((∃ output, nested.result = .ok output ∧ flat.result = .ok output) ∨
      ∃ path leaf index error, LeadsTo pipeline.stages path leaf index ∧
        pipeline.flattened.stages[index]? = some leaf ∧
        nested.result = .error (RunError.along leaf.name? error path) ∧
        flat.result = .error ⟨leaf.name?, some index, error⟩) := by
  have hruns := runStages_splice pipeline.stages pipeline.label pipeline.flattened.label 0 0
    ⟨value, source⟩
  refine ⟨inner?_of_mem_splice pipeline.stages, ?_⟩
  cases hruns with
  | ok hnested hflat hsource => exact ⟨hsource, Or.inl ⟨_, hnested, hflat⟩⟩
  | error hleads hnested hflat hsource =>
      rw [Nat.zero_add] at hnested hflat
      exact ⟨hsource, Or.inr ⟨_, _, _, _, hleads, hleads.getElem?_splice, hnested, hflat⟩⟩

end Pipework
