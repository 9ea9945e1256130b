import Pipework.Pipeline.Run
import Mathlib.Data.List.Forall2

set_option autoImplicit false

/-! # A run is a fold of its stages

`passThrough` folds stages over a value from left to right and knows nothing of positions, step
names, logs or observers; the random bytes that transforms draw are handed along with the value. A
run gives the value of that fold (`Pipeline.run_follows_fold`), tells its observer of every stage
that succeeds and of no other, and names the stage that ended it. What it does is stated as one
relation between the stages and an outcome (`RunsThrough`), which holds from any position on
(`runStages_runsThrough`). Stages that do the same give the same run (`runStages_congr`).

An observer is told the observations of the log in their order, so that list is what any observer
gets to know. Stages that succeed one after the other show their values (`Shows`), and what the
observer of a run sees is what its stages show until it ends (`runStages_endsShowing`). -/

namespace Pipework

/-! ## The fold -/

/-- What stands between two stages: a value and the random bytes that are left. -/
structure Midway where
  value : Value
  source : RandomSource

/-- What a stage does with a value: the transform of a step gets the bound arguments, a bare one
    gets none. -/
def Stage.apply (stage : Stage Transform) (state : Midway) : Outcome TransformError :=
  match stage with
  | .step s => s.transform.apply state.source state.value s.arguments
  | .bare transform => transform.apply state.source state.value .empty

/-- The state behind a stage, if the stage succeeds. -/
def Stage.advance (state : Midway) (stage : Stage Transform) : Except TransformError Midway :=
  (stage.apply state).result.map fun value => ⟨value, (stage.apply state).source⟩

/-- The state behind all of `stages`, or the first failure. -/
def passThrough (stages : List (Stage Transform)) (state : Midway) :
    Except TransformError Midway :=
  stages.foldlM Stage.advance state

theorem passThrough_cons_of_ok {stage : Stage Transform} {state : Midway} {value : Value}
    (h : (stage.apply state).result = .ok value) (rest : List (Stage Transform)) :
    passThrough (stage :: rest) state = passThrough rest ⟨value, (stage.apply state).source⟩ := by
  simp only [passThrough, List.foldlM_cons, Stage.advance, h]
  rfl

theorem passThrough_cons_of_error {stage : Stage Transform} {state : Midway}
    {error : TransformError} (h : (stage.apply state).result = .error error)
    (rest : List (Stage Transform)) : passThrough (stage :: rest) state = .error error := by
  simp only [passThrough, List.foldlM_cons, Stage.advance, h]
  rfl

/-! ## Observations of a log -/

@[simp] theorem Log.observations_append (first second : Log) :
    Log.observations (first ++ second) = first.observations ++ second.observations :=
  List.filterMap_append

@[simp] theorem Log.observations_unobserved (log : Log) : log.unobserved.observations = [] := by
  simp only [Log.observations, Log.unobserved, List.filterMap_eq_nil_iff, List.mem_filter]
  intro record hrecord
  exact Option.isNone_iff_eq_none.1 hrecord.2

/-- A span around records hides none of their observations. -/
@[simp] theorem Log.observations_within (span : Span) (log : Log) :
    Log.observations (log.map (·.within span)) = log.observations := by
  simp only [Log.observations, List.filterMap_map]
  rfl

/-- What happens inside a transform is nothing to the observer of the run around it. -/
theorem Transform.observations_apply (transform : Transform) (source : RandomSource)
    (value : Value) (args : Arguments) :
    (transform.apply source value args).log.observations = [] := by
  cases transform with
  | builtin builtin => rfl
  | host apply => rfl
  | pipeline pipeline => exact Log.observations_unobserved _

theorem Stage.observations_apply (stage : Stage Transform) (state : Midway) :
    (stage.apply state).log.observations = [] := by
  cases stage with
  | step s => exact Transform.observations_apply ..
  | bare transform => exact Transform.observations_apply ..

/-! ## One stage of a run -/

theorem runStages_cons_of_ok {stage : Stage Transform} {state : Midway} {value : Value}
    (h : (stage.apply state).result = .ok value) (label : String) (position : Nat)
    (rest : List (Stage Transform)) :
    runStages label position (stage :: rest) state.source state.value =
      (runStages label (position + 1) rest (stage.apply state).source value).mapLog fun log =>
        (stage.apply state).log ++ ⟨[], .observed ⟨position, stage, value⟩⟩ :: log := by
  cases stage with
  | step s =>
      obtain ⟨name, transform, args⟩ := s
      simp only [Stage.apply] at h
      simp only [runStages, Stage.apply, h]
  | bare transform =>
      simp only [Stage.apply] at h
      simp only [runStages, Stage.apply, h]

theorem runStages_cons_of_error {stage : Stage Transform} {state : Midway}
    {error : TransformError} (h : (stage.apply state).result = .error error) (label : String)
    (position : Nat) (rest : List (Stage Transform)) :
    runStages label position (stage :: rest) state.source state.value =
      { result := .error ⟨stage.name?, some position, error⟩
        source := (stage.apply state).source
        log := (stage.apply state).log ++
          [.ofMessage (Pipeline.failure label position stage.name? error)] } := by
  cases stage with
  | step s =>
      obtain ⟨name, transform, args⟩ := s
      simp only [Stage.apply] at h
      simp only [runStages, Stage.apply, h, Stage.name?]
  | bare transform =>
      simp only [Stage.apply] at h
      simp only [runStages, Stage.apply, h, Stage.name?]

/-! ## Whole runs -/

/-- `outcome` is that of a run whose first `count` stages succeed and no other, the first one
    standing at `position`. -/
structure RunsThrough (position : Nat) (stages : List (Stage Transform)) (state : Midway)
    (count : Nat) (outcome : Outcome RunError) : Prop where
  count_le : count ≤ stages.length
  /-- There are no more observations than successful stages. -/
  length_observations : outcome.log.observations.length = count
  /-- The observation of a successful stage shows the value behind it. -/
  observation : ∀ (i : Nat) (hi : i < stages.length), i < count →
    ∃ behind, passThrough (stages.take (i + 1)) state = .ok behind ∧
      outcome.log.observations[i]? = some ⟨position + i, stages[i], behind.value⟩
  /-- A run without failure ends behind its last stage. -/
  finished : count = stages.length →
    ∃ behind, passThrough stages state = .ok behind ∧
      outcome.result = .ok behind.value ∧ outcome.source = behind.source
  /-- A run with a failure ends with it, located at its stage, and leaves the random bytes that
      this stage leaves. -/
  failed : ∀ hk : count < stages.length,
    ∃ before error, passThrough (stages.take count) state = .ok before ∧
      (stages[count].apply before).result = .error error ∧
      passThrough stages state = .error error ∧
      outcome.result = .error ⟨stages[count].name?, some (position + count), error⟩ ∧
      outcome.source = (stages[count].apply before).source

/-- **The invariant of a run**, by induction on the stages that are left. -/
theorem runStages_runsThrough (label : String) (position : Nat) (stages : List (Stage Transform))
    (state : Midway) :
    ∃ count, RunsThrough position stages state count
      (runStages label position stages state.source state.value) := by
  induction stages generalizing position state with
  | nil =>
      refine ⟨0, ?_⟩
      exact
        { count_le := Nat.le_refl 0
          length_observations := rfl
          observation := fun i hi => absurd hi (Nat.not_lt_zero i)
          finished := fun _ => ⟨state, rfl, rfl, rfl⟩
          failed := fun hk => absurd hk (Nat.lt_irrefl 0) }
  | cons stage rest ih =>
      have hquiet := stage.observations_apply state
      cases hresult : (stage.apply state).result with
      | error error =>
          -- nothing succeeded, so this stage is the one that ends the run
          refine ⟨0, ?_⟩
          rw [runStages_cons_of_error hresult]
          exact
            { count_le := Nat.zero_le _
              length_observations := by
                simp only [Log.observations_append, hquiet, List.nil_append]
                rfl
              observation := fun i _ hi => absurd hi (Nat.not_lt_zero i)
              finished := fun h => absurd h.symm (Nat.succ_ne_zero _)
              failed := fun _ =>
                ⟨state, error, rfl, hresult, passThrough_cons_of_error hresult rest, rfl, rfl⟩ }
      | ok value =>
          -- the rest is a run from the next position on; its indices are one less
          obtain ⟨count, hrest⟩ := ih (position + 1) ⟨value, (stage.apply state).source⟩
          refine ⟨count + 1, ?_⟩
          rw [runStages_cons_of_ok hresult]
          have hseen (log : Log) :
              Log.observations ((stage.apply state).log ++
                ⟨[], .observed ⟨position, stage, value⟩⟩ :: log) =
                ⟨position, stage, value⟩ :: log.observations := by
            rw [Log.observations_append, hquiet, List.nil_append]
            rfl
          exact
            { count_le := Nat.succ_le_succ hrest.count_le
              length_observations := by
                simp only [Outcome.mapLog, hseen, List.length_cons, hrest.length_observations]
              observation := by
                intro i hi hlt
                simp only [Outcome.mapLog, hseen, List.take_succ_cons,
                  passThrough_cons_of_ok hresult]
                cases i with
                | zero => exact ⟨⟨value, (stage.apply state).source⟩, rfl, rfl⟩
                | succ i =>
                    obtain ⟨behind, hbehind, hat⟩ := hrest.observation i
                      (Nat.lt_of_succ_lt_succ hi) (Nat.lt_of_succ_lt_succ hlt)
                    refine ⟨behind, hbehind, ?_⟩
                    rw [List.getElem?_cons_succ, hat]
                    simp only [List.getElem_cons_succ]
                    rw [Nat.add_right_comm, Nat.add_assoc]
              finished := by
                intro h
                rw [passThrough_cons_of_ok hresult]
                exact hrest.finished (Nat.succ.inj h)
              failed := by
                intro hk
                obtain ⟨before, error, hbefore, herror, hfold, hres, hsource⟩ :=
                  hrest.failed (Nat.lt_of_succ_lt_succ hk)
                refine ⟨before, error, ?_, herror, ?_, ?_, hsource⟩
                · rw [List.take_succ_cons, passThrough_cons_of_ok hresult, hbefore]
                · rw [passThrough_cons_of_ok hresult, hfold]
                · simp only [Outcome.mapLog, hres, List.getElem_cons_succ]
                  rw [Nat.add_right_comm, Nat.add_assoc] }

/-- Of an outcome, `RunsThrough` looks at the result, at what is left of the random bytes and at
    the observations. -/
theorem RunsThrough.of_eq {position : Nat} {stages : List (Stage Transform)} {state : Midway}
    {count : Nat} {outcome other : Outcome RunError}
    (h : RunsThrough position stages state count outcome) (hresult : other.result = outcome.result)
    (hsource : other.source = outcome.source)
    (hseen : other.log.observations = outcome.log.observations) :
    RunsThrough position stages state count other where
  count_le := h.count_le
  length_observations := hseen ▸ h.length_observations
  observation := hseen ▸ h.observation
  finished := hresult ▸ hsource ▸ h.finished
  failed := hresult ▸ hsource ▸ h.failed

/-! ## What stages show -/

/-- Stages from `position` on succeed one after the other and lead from a state to another one. The
    value behind each of them is shown, with its position. -/
inductive Shows : Nat → List (Stage Transform) → Midway → List Observation → Midway → Prop
  | nil {position : Nat} {state : Midway} : Shows position [] state [] state
  | cons {position : Nat} {stage : Stage Transform} {rest : List (Stage Transform)}
      {state behind : Midway} {value : Value} {seen : List Observation}
      (hok : (stage.apply state).result = .ok value)
      (hrest : Shows (position + 1) rest ⟨value, (stage.apply state).source⟩ seen behind) :
      Shows position (stage :: rest) state (⟨position, stage, value⟩ :: seen) behind

/-- How a run of stages ends, `seen` being what its observer has got to see by then. -/
inductive EndsShowing (position : Nat) (stages : List (Stage Transform)) (state : Midway)
    (seen : List Observation) : Except RunError Value → Prop
  | completed {behind : Midway} (hshows : Shows position stages state seen behind) :
      EndsShowing position stages state seen (.ok behind.value)
  | failed {front back : List (Stage Transform)} {stage : Stage Transform} {before : Midway}
      {error : TransformError} (hstages : stages = front ++ stage :: back)
      (hshows : Shows position front state seen before)
      (herror : (stage.apply before).result = .error error) :
      EndsShowing position stages state seen
        (.error ⟨stage.name?, some (position + front.length), error⟩)

theorem EndsShowing.cons {position : Nat} {stage : Stage Transform}
    {rest : List (Stage Transform)} {state : Midway} {value : Value} {seen : List Observation}
    {result : Except RunError Value} (hok : (stage.apply state).result = .ok value)
    (h : EndsShowing (position + 1) rest ⟨value, (stage.apply state).source⟩ seen result) :
    EndsShowing position (stage :: rest) state (⟨position, stage, value⟩ :: seen) result := by
  cases h with
  | completed hshows => exact .completed (.cons hok hshows)
  | failed hstages hshows herror =>
      subst hstages
      rw [Nat.add_assoc, Nat.add_comm 1]
      exact .failed List.cons_append.symm (.cons hok hshows) herror

/-- **The observer of a run sees what its stages show**, by induction on the stages that are
    left. -/
theorem runStages_endsShowing (label : String) (position : Nat) (stages : List (Stage Transform))
    (state : Midway) :
    let outcome := runStages label position stages state.source state.value
    EndsShowing position stages state outcome.log.observations outcome.result := by
  induction stages generalizing position state with
  | nil => exact .completed .nil
  | cons stage rest ih =>
      have hquiet := stage.observations_apply state
      cases hresult : (stage.apply state).result with
      | error error =>
          rw [runStages_cons_of_error hresult]
          simp only [Log.observations_append, hquiet, List.nil_append]
          exact .failed (List.nil_append _).symm .nil hresult
      | ok value =>
          rw [runStages_cons_of_ok hresult]
          simp only [Outcome.mapLog, Log.observations_append, hquiet, List.nil_append]
          exact (ih (position + 1) ⟨value, (stage.apply state).source⟩).cons hresult

/-! ## Behind a failure -/

/-- Stages behind one that fails are not reached: the outcome is that of the stages up to the
    failure, whatever else follows. -/
theorem runStages_append_of_error {front : List (Stage Transform)} {state : Midway}
    {error : TransformError} (h : passThrough front state = .error error) (label : String)
    (position : Nat) (back : List (Stage Transform)) :
    runStages label position (front ++ back) state.source state.value =
      runStages label position front state.source state.value := by
  induction front generalizing position state with
  | nil => cases h
  | cons stage rest ih =>
      rw [List.cons_append]
      cases hresult : (stage.apply state).result with
      | error e => rw [runStages_cons_of_error hresult, runStages_cons_of_error hresult]
      | ok value =>
          rw [passThrough_cons_of_ok hresult] at h
          rw [runStages_cons_of_ok hresult, runStages_cons_of_ok hresult]
          exact congrArg _ (ih h (position + 1))

theorem result_runStages_of_error {front : List (Stage Transform)} {stage : Stage Transform}
    {state before : Midway} {error : TransformError} (hfront : passThrough front state = .ok before)
    (herror : (stage.apply before).result = .error error) (label : String) (position : Nat)
    (back : List (Stage Transform)) :
    (runStages label position (front ++ stage :: back) state.source state.value).result =
      .error ⟨stage.name?, some (position + front.length), error⟩ := by
  induction front generalizing position state with
  | nil =>
      obtain rfl := Except.ok.inj hfront
      rw [List.nil_append, runStages_cons_of_error herror]
      rfl
  | cons first rest ih =>
      cases hresult : (first.apply state).result with
      | error e =>
          rw [passThrough_cons_of_error hresult] at hfront
          cases hfront
      | ok value =>
          rw [passThrough_cons_of_ok hresult] at hfront
          rw [List.cons_append, runStages_cons_of_ok hresult, List.length_cons,
            Nat.add_comm rest.length 1, ← Nat.add_assoc]
          exact ih hfront (position + 1)

theorem passThrough_take_succ_of_error {stages : List (Stage Transform)} {state before : Midway}
    {count : Nat} {error : TransformError} (hk : count < stages.length)
    (hbefore : passThrough (stages.take count) state = .ok before)
    (herror : (stages[count].apply before).result = .error error) :
    passThrough (stages.take (count + 1)) state = .error error := by
  unfold passThrough at hbefore ⊢
  rw [List.take_succ_eq_append_getElem hk, List.foldlM_append, hbefore]
  exact passThrough_cons_of_error herror []

/-! ## Stages that do the same -/

/-- The failure without the name of its step. -/
def RunError.unnamed (error : RunError) : RunError := { error with step := none }

/-- Of each stage, a run only needs what it does with a value; its name is no more than a part of
    its failure. -/
theorem runStages_congr {stages others : List (Stage Transform)}
    (h : List.Forall₂ (fun stage other => stage.apply = other.apply) stages others)
    (label label' : String) (position : Nat) (state : Midway) :
    (runStages label position stages state.source state.value).source =
      (runStages label' position others state.source state.value).source ∧
    (runStages label position stages state.source state.value).result.mapError RunError.unnamed =
      (runStages label' position others state.source state.value).result.mapError
        RunError.unnamed := by
  induction h generalizing position state with
  | nil => exact ⟨rfl, rfl⟩
  | @cons stage other rest rest' hstage _ ih =>
      cases hresult : (stage.apply state).result with
      | error error =>
          have hother : (other.apply state).result = .error error := hstage ▸ hresult
          have hsource : (stage.apply state).source = (other.apply state).source := by rw [hstage]
          rw [runStages_cons_of_error hresult, runStages_cons_of_error hother]
          exact ⟨hsource, rfl⟩
      | ok value =>
          have hother : (other.apply state).result = .ok value := hstage ▸ hresult
          rw [runStages_cons_of_ok hresult, runStages_cons_of_ok hother, ← hstage]
          exact ih (position + 1) ⟨value, (stage.apply state).source⟩

/-! ## Runs of pipelines -/

namespace Pipeline

/-- What a run adds around its stages is nothing to its observer. -/
theorem observations_inSpan (pipeline : Pipeline Transform) (spanName : String) (value : Value)
    (body : Outcome RunError) :
    (pipeline.inSpan spanName value body).log.observations = body.log.observations := by
  have hending : ∀ ending : Log, ending.observations = [] →
      Log.observations (body.log ++ ending) = body.log.observations := by
    intro ending h
    rw [Log.observations_append, h, List.append_nil]
  unfold inSpan
  refine (Log.observations_within _ _).trans (hending _ ?_)
  cases body.result with
  | ok value => rfl
  | error error => rfl

theorem runObserved_endsShowing (pipeline : Pipeline Transform) (source : RandomSource)
    (value : Value) :
    let outcome := pipeline.runObserved source value
    EndsShowing 0 pipeline.stages ⟨value, source⟩ outcome.log.observations outcome.result := by
  intro outcome
  have hseen : outcome.log.observations = _ := observations_inSpan ..
  rw [hseen]
  exact runStages_endsShowing pipeline.label 0 pipeline.stages ⟨value, source⟩

/-- A plain and an observed run have the same result. -/
theorem result_run (pipeline : Pipeline Transform) (source : RandomSource) (value : Value) :
    (pipeline.run source value).result = (pipeline.runObserved source value).result :=
  rfl

/-- **A run is the fold of its stages.** A plain and an observed run have the same result. There is
    a number of stages that succeed one after the other, and the observer of the observed run gets
    exactly their values with their positions, in order (`RunsThrough`). If a stage is left behind
    them, it fails, its failure ends the run, and no other stages in place of those behind it make
    a difference. -/
theorem run_follows_fold (pipeline : Pipeline Transform) (source : RandomSource) (value : Value) :
    (pipeline.run source value).result = (pipeline.runObserved source value).result ∧
    (pipeline.run source value).source = (pipeline.runObserved source value).source ∧
    (pipeline.run source value).log.observations = [] ∧
    ∃ count, RunsThrough 0 pipeline.stages ⟨value, source⟩ count
        (pipeline.runObserved source value) ∧
      (count < pipeline.size → ∀ others : List (Stage Transform),
        let changed := { pipeline with stages := pipeline.stages.take (count + 1) ++ others }
        (changed.runObserved source value).result = (pipeline.runObserved source value).result ∧
        (changed.runObserved source value).source = (pipeline.runObserved source value).source ∧
        (changed.runObserved source value).log.observations =
          (pipeline.runObserved source value).log.observations) := by
  refine ⟨rfl, rfl, Log.observations_unobserved _, ?_⟩
  obtain ⟨count, hbody⟩ := runStages_runsThrough pipeline.label 0 pipeline.stages ⟨value, source⟩
  refine ⟨count, hbody.of_eq rfl rfl (observations_inSpan ..), ?_⟩
  intro hk others changed
  obtain ⟨before, error, hbefore, herror, -⟩ := hbody.failed hk
  have hfront := passThrough_take_succ_of_error hk hbefore herror
  -- both runs are that of the stages up to the failure
  have hsame : runStages pipeline.label 0 changed.stages source value =
      runStages pipeline.label 0 pipeline.stages source value := by
    have hsplit := runStages_append_of_error hfront pipeline.label 0
    calc runStages pipeline.label 0 changed.stages source value
        = runStages pipeline.label 0 (pipeline.stages.take (count + 1)) source value :=
          hsplit others
      _ = runStages pipeline.label 0
            (pipeline.stages.take (count + 1) ++ pipeline.stages.drop (count + 1)) source value :=
          (hsplit _).symm
      _ = runStages pipeline.label 0 pipeline.stages source value := by
          rw [List.take_append_drop]
  have hresult := congrArg Outcome.result hsame
  have hsource := congrArg Outcome.source hsame
  refine ⟨hresult, hsource, ?_⟩
  unfold runObserved execute
  rw [observations_inSpan, observations_inSpan]
  exact congrArg (fun body => body.log.observations) hsame

/-- The stages before `position` succeed one after the other, and the one there fails. -/
def FailsAt (pipeline : Pipeline Transform) (position : Nat) (source : RandomSource)
    (value : Value) (error : TransformError) : Prop :=
  ∃ stage before, pipeline.stages[position]? = some stage ∧
    passThrough (pipeline.stages.take position) ⟨value, source⟩ = .ok before ∧
    (stage.apply before).result = .error error

/-- A run that fails at a stage reports the name and the position of that stage. -/
theorem FailsAt.result_run {pipeline : Pipeline Transform} {position : Nat}
    {source : RandomSource} {value : Value} {error : TransformError} {stage : Stage Transform}
    (h : pipeline.FailsAt position source value error)
    (hstage : pipeline.stages[position]? = some stage) :
    (pipeline.run source value).result = .error ⟨stage.name?, some position, error⟩ := by
  obtain ⟨_, before, hsome, hbefore, herror⟩ := h
  obtain rfl := Option.some.inj (hsome.symm.trans hstage)
  obtain ⟨hlt, rfl⟩ := List.getElem?_eq_some_iff.1 hstage
  have hfails := result_runStages_of_error hbefore herror pipeline.label 0
    (pipeline.stages.drop (position + 1))
  rw [List.getElem_cons_drop, List.take_append_drop, List.length_take_of_le (Nat.le_of_lt hlt),
    Nat.zero_add] at hfails
  exact hfails

/-- A run without a value fails at a stage. -/
theorem exists_failsAt {pipeline : Pipeline Transform} {source : RandomSource} {value : Value}
    {error : RunError} (h : (pipeline.run source value).result = .error error) :
    ∃ position, pipeline.FailsAt position source value error.source := by
  obtain ⟨count, hbody⟩ := runStages_runsThrough pipeline.label 0 pipeline.stages ⟨value, source⟩
  rcases Nat.lt_or_eq_of_le hbody.count_le with hlt | heq
  · obtain ⟨before, _, hbefore, herror, -, hresult, -⟩ := hbody.failed hlt
    obtain rfl := Except.error.inj (hresult.symm.trans h)
    exact ⟨count, _, before, List.getElem?_eq_getElem hlt, hbefore, herror⟩
  · obtain ⟨_, -, hfinished, -⟩ := hbody.finished heq
    cases hfinished.symm.trans h

end Pipeline

end Pipework
