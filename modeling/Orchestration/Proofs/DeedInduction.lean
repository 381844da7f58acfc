import Orchestration.Proofs.Logging
import Orchestration.Proofs.Operations

/-!
# The deeds of an operation, one by one

An operation of the engine makes many calls, most of them to look at something. What it does to the
records and to the channels comes down to a few deeds: a step is launched, a result is written, a
run ends and reports to the step that has started it, and so on. `Deed` lists them all. Each
constructor says from which scenes the deed is done, what becomes of the scene, and which calls it
consists of.

The deeds of an operation are done one after the other (`Deeds`). What a deed may presuppose is told
by the scene and by the log of the operation up to it. A launch is timed by the last call before it,
for instance, and a new run below a step is made directly after a launch of the step.

So whatever is to be shown of all operations is shown by induction on their deeds, with one case a
constructor.
-/

namespace Orchestration

namespace Engine

variable {α : Type} {setup : Setup} {G : Uid → Prop} {o : Operation} {log : List Moment}
variable {s₀ s s' : Scene}

/-! ## Kinds of moments -/

namespace Moment

/-- Nothing comes of a call: it is idle, or the store refuses a status or a result. -/
def Idle : Moment → Prop
  | ⟨_, .store (.updateRunStatus ..), a⟩ => a ≠ .ok true
  | ⟨_, .store (.applyStepResult ..), a⟩ => a ≠ .ok true
  | ⟨_, c, _⟩ => c.isIdle = true

def launches (u : Uid) : Moment → Bool
  | ⟨_, .store (.launchStep v _ _), .ok _⟩ => v == u
  | _ => false

/-- Whether a call uses up a repetition of a step. -/
def grants (u : Uid) : Moment → Bool
  | ⟨_, .store (.decrementRetry v), .ok true⟩ => v == u
  | _ => false

/-- Whether a call finds that a step has no repetition left. -/
def refuses (u : Uid) : Moment → Bool
  | ⟨_, .store (.decrementRetry v), .ok false⟩ => v == u
  | _ => false

theorem idle_of_isIdle {m : Moment} (h : m.call.isIdle = true) : m.Idle := by
  obtain ⟨t, c, a⟩ := m
  cases c with
  | store c =>
    cases c with
    | getRun | getStep | listSteps | findStep | listTopLevelRuns => rfl
    | _ => cases h
  | publish | getFunction | deployFunction | getWorkflow | getStepList | now | spawn => exact h
  | post | newUid => cases h

theorem Idle.launches {m : Moment} (h : m.Idle) {u : Uid} : m.launches u = false := by
  obtain ⟨t, c, a⟩ := m
  cases c with
  | store c =>
    cases c with
    | launchStep => cases h
    | _ => rfl
  | _ => rfl

theorem Idle.grants {m : Moment} (h : m.Idle) {u : Uid} : m.grants u = false := by
  obtain ⟨t, c, a⟩ := m
  cases c with
  | store c =>
    cases c with
    | decrementRetry => cases h
    | _ => rfl
  | _ => rfl

end Moment

/-- Whether a call is part of the end of a run, after the status has been written. -/
def Call.isEnding (run : Uid) : Call → Bool
  | .store (.setRunEndTime u _) | .store (.recordRunError u _ _) | .store (.setRunOutput u _) =>
    u == run
  | c => c.isIdle

theorem Call.isEnding_of_isIdle {run : Uid} {c : Call} (h : c.isIdle = true) :
    c.isEnding run = true := by
  unfold Call.isEnding
  split
  · cases h
  · cases h
  · cases h
  · exact h

/-- An action makes only calls that are part of the end of a run. -/
abbrev Closes (run : Uid) (a : Action α) : Prop := Makes (fun c ↦ c.isEnding run = true) a

theorem closes_setRunEndTime (run : Uid) (time : Instant) :
    Closes run (Action.store (.setRunEndTime run time)) := .store (beq_self_eq_true run)

theorem closes_recordRunError (run : Uid) (step reason : String) :
    Closes run (Action.store (.recordRunError run step reason)) := .store (beq_self_eq_true run)

theorem closes_setRunOutput (run : Uid) (output : Json.Object) :
    Closes run (Action.store (.setRunOutput run output)) := .store (beq_self_eq_true run)

/-! ## Reports -/

/-- The reason why a run has failed, as its record has it. -/
def recordedReason (q : WorkflowInstance) : Option String :=
  q.errorMessages.head?.map fun (step, reason) ↦ step ++ ": " ++ reason

/-- What a finished run tells the step that has started it, as its record has it. -/
def recordedVerdict (q : WorkflowInstance) (parent : Uid) (x : StepInstance) : StepResult :=
  verdict q parent x q.runStatus (recordedReason q) q.outputData

/-- A finished run tells the step that has started it how it ended, if the step waits for it. -/
inductive Told (q : WorkflowInstance) (s : Scene) : List Moment → Scene → Prop where
  | told (parent step : Uid) (x : StepInstance) (a : Except EngineError Unit)
      (hparent : q.parentInstanceUid = some parent) (hstep : q.parentStepInstanceUid = some step)
      (hx : s.tables.step? step = some x) (hwaits : awaits x q = true) :
      Told q s [⟨s, .publish .results (recordedVerdict q parent x).toJson.text, a⟩]
        (s.publish .results (recordedVerdict q parent x).toJson.text (Except.isOk a))
  | untold (h : ∀ parent step x, q.parentInstanceUid = some parent →
      q.parentStepInstanceUid = some step → s.tables.step? step = some x → awaits x q = false) :
      Told q s [] s

theorem Told.tables {q : WorkflowInstance} {l : List Moment} (h : Told q s l s') :
    s'.tables = s.tables ∧ s'.issued = s.issued ∧ s'.made = s.made := by
  cases h with
  | told => exact ⟨rfl, rfl, rfl⟩
  | untold => exact ⟨rfl, rfl, rfl⟩

/-! ## What a deed presupposes -/

/-- A run goes on: it has not come to its end and is not paused. -/
def GoesOn (q : WorkflowInstance) : Prop := q.runStatus.isTerminal = false ∧ q.runStatus ≠ .paused

/-- The last call was a reading of the clock. -/
def JustRead (log : List Moment) (s : Scene) (time : Instant) : Prop :=
  ∃ before, log = before ++ [⟨s, .now, time⟩]

/-- Why a step is launched: the run has arrived at it, it is a loop that goes on, or it has failed
and has just been granted a repetition. -/
inductive Occasion (G : Uid → Prop) (log : List Moment) (x : StepInstance) : Prop where
  | arrival (h : G x.workflowInstanceUid → x.runStatus = .new)
  | loop (f : Uid) (text : String) (hshape : x.shape = .doWhile f text)
      (hstatus : x.runStatus = .completed ∨ x.runStatus = .skipped)
  | retry (hstatus : x.runStatus = .failed ∨ x.runStatus = .timedOut)
      (hgranted : ∃ m ∈ log, m.grants x.uid = true)
      (hfirst : ∀ m ∈ log, m.launches x.uid = false)

/-- How a run has come to a step that is launched: it begins there, it leaves the step before, or
something has happened to the step already. -/
inductive Reached (t : Store.Tables) (x : StepInstance) : Prop where
  | first (h : x.runOrderLabel = .first)
  | next (y : StepInstance) (hy : t.step? y.uid = some y)
      (hrun : y.workflowInstanceUid = x.workflowInstanceUid) (hnext : y.nextStepId = some x.uid)
      (hstatus : y.runStatus = .completed ∨ y.runStatus = .skipped)
  | again (h : x.runStatus ≠ .new)

/-- What a step is launched with: its input, with the values that its formulas have now. -/
def Evaluates (t : Store.Tables) (x : StepInstance) (input : Json.Object) : Prop :=
  Finds t (normalize x.inputData x.workflowInstanceUid (some x)) (.ok input)

/-- A step is as its launch has left it, and nothing has been done since. -/
def JustLaunched (log : List Moment) (x : StepInstance) : Prop :=
  ∃ before after t x₀ time,
    log = before ++ ⟨t, .store (.launchStep x.uid x.inputData time), .ok ()⟩ :: after ∧
    (∀ m ∈ after, m.Idle) ∧ t.tables.step? x.uid = some x₀ ∧
    x = Store.Tables.launched x.inputData time x₀

/-- Who asks for a new run: whoever starts it, or the launch of a step that has just been made. -/
inductive Origin (o : Operation) (log : List Moment) (parent parentStep : Option Uid) : Prop where
  | outside (workflow : Uid) (input : Json.Object)
      (h : o = .start workflow input parent parentStep)
  | launch (x : StepInstance) (before after : List Moment) (m : Moment)
      (hlog : log = before ++ m :: after) (hm : m.launches x.uid = true)
      (hafter : ∀ m ∈ after, m.Idle) (hparent : parent = some x.workflowInstanceUid)
      (hstep : parentStep = some x.uid)

/-- How a run may end of itself: completed with an output, or otherwise for a reason. -/
inductive Ends : RunStatus → Option Failure → Option Json.Object → Prop where
  | completed (output : Json.Object) : Ends .completed none (some output)
  | failed {status : RunStatus} (failure : Failure) (hstatus : status = .failed ∨
      status = .timedOut ∨ status = .canceled ∨ status = .failedWithTerminalError) :
      Ends status (some failure) none

/-- A run may end of itself: it holds no step, and if it completes, its output is that of its last
step, which was successful. -/
structure Concludes (t : Store.Tables) (q : WorkflowInstance) (status : RunStatus)
    (output : Option Json.Object) : Prop where
  unheld : q.heldStepInstanceUid = none
  last : status = .completed → ∃ x, t.step? x.uid = some x ∧ x.workflowInstanceUid = q.uid ∧
    x.nextStepId = none ∧ (x.runStatus = .completed ∨ x.runStatus = .skipped) ∧
    output = some x.outputData

/-- Who ends a run without a word to anybody: an operator who stops it, or a watch that gives up. -/
inductive Quits : Operation → WorkflowInstance → RunStatus → Option Failure → Prop where
  | stop (q : WorkflowInstance) : Quits (.stop q.uid) q .stopped none
  | watch (run : Uid) (time : Nat) (phase : Phase) (q : WorkflowInstance) (failure : Failure)
      (hq : q.runStatus = .deployingFunctions) :
      Quits (.watch run time phase) q .failedWithTerminalError (some failure)
  | failRun (message : DeploymentOutcome) (q : WorkflowInstance) (failure : Failure)
      (hq : q.runStatus = .deployingFunctions) (hrun : message.workflowInstanceId = q.uid) :
      Quits (.failRun message) q .failedWithTerminalError (some failure)

/-- How the status of a run moves on before its end. -/
inductive Forward : RunStatus → RunStatus → Prop where
  | begin : Forward .new .running
  | wait : Forward .new .deployingFunctions
  | ready : Forward .deployingFunctions .running
  | pause : Forward .running .paused

/-! ## Deeds -/

/-- What is done next by an operation that has begun in a scene, with its log so far. -/
inductive Deed (setup : Setup) (G : Uid → Prop) (o : Operation) (s₀ : Scene) (log : List Moment)
    (s : Scene) : List Moment → Scene → Prop where
  /-- Nothing is done. -/
  | idle (l : List Moment) (h : ∀ m ∈ l, m.scene = s ∧ m.Idle) : Deed setup G o s₀ log s l s
  /-- A run is put into the store with its steps, under identifiers that are given out for them. -/
  | make (definition : WorkflowDefinition) (steps : List StepDefinition) (input : Json.Object)
      (parent parentStep : Option Uid) (run : Uid) (uids : List Uid) (time : Instant)
      (instances : List StepInstance) (new : WorkflowInstance) (l : List Moment) (s₁ : Scene)
      (hne : steps ≠ []) (hlen : uids.length = steps.length) (hnd : uids.Nodup)
      (hrun : run ∉ s.issued) (huids : ∀ u ∈ uids, u ∉ (s.issue run).issued)
      (hinst : instances = buildStepInstances run steps input uids)
      (hnew : new = newRun run definition instances input parent parentStep time)
      (hl : ∀ m ∈ l, m.call = .newUid) (horigin : Origin o log parent parentStep)
      (hs₁ : s₁ = { s.issue run with issued := (s.issue run).issued ++ uids }) :
      Deed setup G o s₀ log s
        (l ++ [⟨s₁, .now, time⟩, ⟨s₁, .store (.insertRun new instances), .ok ()⟩])
        { s₁ with
          tables := withRun s.tables new instances
          made := s.made ++ [(new, instances)] }
  /-- A new run notes when it starts. -/
  | startTime (q : WorkflowInstance) (time : Instant) (hq : s.tables.run? q.uid = some q)
      (hnew : q.runStatus = .new) (htime : JustRead log s time) :
      Deed setup G o s₀ log s [⟨s, .store (.setRunStartTime q.uid time), .ok ()⟩]
        { s with tables := s.tables.putRun { q with startTime := some time } }
  /-- A run moves on to another status. -/
  | move (q : WorkflowInstance) (status : RunStatus) (expected : Option RunStatus)
      (hq : s.tables.run? q.uid = some q) (hmove : Forward q.runStatus status) :
      Deed setup G o s₀ log s [⟨s, .store (.updateRunStatus q.uid status expected), .ok true⟩]
        { s with tables := s.tables.putRun { q with runStatus := status } }
  /-- A paused run goes on and lets go of what it holds. -/
  | resume (q : WorkflowInstance) (rest : List Moment) (ho : o = .resume q.uid)
      (hq : s.tables.run? q.uid = some q) (hpaused : q.runStatus = .paused)
      (hrest : ∀ m ∈ rest, m.call.isIdle = true ∨ m.call = .store (.takeHeldStep q.uid)) :
      Deed setup G o s₀ log s
        (⟨s, .store (.updateRunStatus q.uid .running (some .paused)), .ok true⟩ :: rest)
        { s with
          tables :=
            s.tables.putRun { q with runStatus := .running, heldStepInstanceUid := none } }
  /-- A paused run holds one of its steps. -/
  | hold (q : WorkflowInstance) (x : StepInstance) (hq : s.tables.run? q.uid = some q)
      (hpaused : q.runStatus = .paused) (hx : s.tables.step? x.uid = some x)
      (hown : x.workflowInstanceUid = q.uid) :
      Deed setup G o s₀ log s [⟨s, .store (.setHeldStep q.uid (some x.uid)), .ok ()⟩]
        { s with tables := s.tables.putRun { q with heldStepInstanceUid := some x.uid } }
  /-- A step is put into a new attempt. -/
  | launch (q : WorkflowInstance) (x : StepInstance) (input : Json.Object) (time : Instant)
      (hx : s.tables.step? x.uid = some x) (hq : s.tables.run? x.workflowInstanceUid = some q)
      (hgoes : GoesOn q) (hl : Launchable G s.tables x.uid) (hwhy : Occasion G log x)
      (htime : JustRead log s time) (hreached : Reached s.tables x)
      (hinput : Evaluates s.tables x input) :
      Deed setup G o s₀ log s [⟨s, .store (.launchStep x.uid input time), .ok ()⟩]
        { s with tables := s.tables.putStep (Store.Tables.launched input time x) }
  /-- The case of a step that is to be launched is noted. -/
  | select (q : WorkflowInstance) (x : StepInstance) (name : String)
      (hx : s.tables.step? x.uid = some x) (hq : s.tables.run? x.workflowInstanceUid = some q)
      (hgoes : GoesOn q) :
      Deed setup G o s₀ log s [⟨s, .store (.setSelectedCase x.uid name), .ok ()⟩]
        { s with tables := s.tables.putStep { x with selectedCaseName := some name } }
  /-- A step that has failed is granted one of its repetitions. -/
  | grant (q : WorkflowInstance) (x : StepInstance) (hx : s.tables.step? x.uid = some x)
      (hq : s.tables.run? x.workflowInstanceUid = some q) (hgoes : GoesOn q)
      (hfailed : x.runStatus = .failed ∨ x.runStatus = .timedOut) (hleft : 0 < x.retryCount)
      (hfirst : ∀ m ∈ log, m.grants x.uid = false ∧ m.launches x.uid = false) :
      Deed setup G o s₀ log s [⟨s, .store (.decrementRetry x.uid), .ok true⟩]
        { s with tables := s.tables.putStep { x with retryCount := x.retryCount - 1 } }
  /-- A step that has failed has no repetition left. -/
  | refuse (q : WorkflowInstance) (x : StepInstance) (hx : s.tables.step? x.uid = some x)
      (hq : s.tables.run? x.workflowInstanceUid = some q) (hgoes : GoesOn q)
      (hfailed : x.runStatus = .failed ∨ x.runStatus = .timedOut) (hleft : x.retryCount ≤ 0)
      (hfirst : ∀ m ∈ log, m.grants x.uid = false ∧ m.launches x.uid = false) :
      Deed setup G o s₀ log s [⟨s, .store (.decrementRetry x.uid), .ok false⟩] s
  /-- A result is written onto its step, before anything else is done. -/
  | record (m : StepResult) (x : StepInstance) (time : Instant) (expected : Int)
      (hfirst : s = s₀) (ho : o = .result m) (hu : x.uid = m.stepInstanceId)
      (hx : s.tables.step? x.uid = some x) (hrunning : x.runStatus = .running)
      (hcount : x.runCount = expected) :
      Deed setup G o s₀ log s
        [⟨s, .store (.applyStepResult x.uid (updateOf m time expected)), .ok true⟩]
        { s with
          tables :=
            s.tables.putStep (Store.Tables.withResult (updateOf m time expected) x).2 }
  /-- Work is handed over. -/
  | dispatch (q : WorkflowInstance) (d : Dispatch) (m : Moment) (hm : m.scene = s)
      (hc : m.call = .publish .work (workRequest d.step d.input d.function).toJson.text ∨
        ∃ address body, m.call = .post address body)
      (hx : s.tables.step? d.step.uid = some d.step) (hrunning : d.step.runStatus = .running)
      (hq : s.tables.run? d.step.workflowInstanceUid = some q) (hgoes : GoesOn q)
      (accepted : Bool) (hinput : d.step.inputData = d.input)
      (hbody : ∀ address body, m.call = .post address body →
        body = (setup.pushRequest d.step d.input).toJson.text)
      (hlatest : JustLaunched log d.step) :
      Deed setup G o s₀ log s [m] (s.send (setup.parcelOf d) accepted)
  /-- Work that could not be handed over is canceled. -/
  | cancel (x : StepInstance) (reason : String) (a : Except EngineError Unit)
      (hx : s.tables.step? x.uid = some x) (hrunning : x.runStatus = .running) :
      Deed setup G o s₀ log s
        [⟨s, .publish .results
          (StepResult.canceled x.workflowInstanceUid x.uid (attemptOf x) reason).toJson.text, a⟩]
        (s.publish .results
          (StepResult.canceled x.workflowInstanceUid x.uid (attemptOf x) reason).toJson.text
          (Except.isOk a))
  /-- The outcome of a wait is published. -/
  | outcome (payload : String) (a : Except EngineError Unit) :
      Deed setup G o s₀ log s [⟨s, .publish .deployments payload, a⟩]
        (s.publish .deployments payload (Except.isOk a))
  /-- A run ends and reports. -/
  | finish (q : WorkflowInstance) (status : RunStatus) (failure : Option Failure)
      (output : Option Json.Object) (time : Instant) (rest told : List Moment) (s' : Scene)
      (hq : s.tables.run? q.uid = some q) (hgoes : q.runStatus.isTerminal = false)
      (hends : Ends status failure output) (hrest : ∀ m ∈ rest, m.call.isEnding q.uid = true)
      (htold : Told (endedRun q status failure output time)
        { s with tables := s.tables.putRun (endedRun q status failure output time) } told s')
      (hconcludes : Concludes s.tables q status output) :
      Deed setup G o s₀ log s
        (⟨s, .store (.updateRunStatus q.uid status none), .ok true⟩ :: (rest ++ told)) s'
  /-- A run is ended without a report. -/
  | quit (q : WorkflowInstance) (status : RunStatus) (failure : Option Failure) (time : Instant)
      (expected : Option RunStatus) (rest : List Moment) (hquits : Quits o q status failure)
      (hq : s.tables.run? q.uid = some q) (hgoes : q.runStatus.isTerminal = false)
      (hrest : ∀ m ∈ rest, m.call.isEnding q.uid = true) :
      Deed setup G o s₀ log s
        (⟨s, .store (.updateRunStatus q.uid status expected), .ok true⟩ :: rest)
        { s with tables := s.tables.putRun (endedRun q status failure none time) }
  /-- A run that has ended reports once more. -/
  | again (q : WorkflowInstance) (told : List Moment) (s' : Scene)
      (hq : s.tables.run? q.uid = some q) (hended : q.runStatus.isTerminal = true)
      (hstopped : q.runStatus ≠ .stopped) (htold : Told q s told s') :
      Deed setup G o s₀ log s told s'
  /-- Runs are removed with their steps and with all runs below them. -/
  | remove (uids : List Uid) (m : Moment) (hm : m.scene = s)
      (hc : m.call = .store (.deleteRuns uids))
      (ho : ∃ keepDays maxCount, o = .sweep keepDays maxCount) :
      Deed setup G o s₀ log s [m] { s with tables := s.tables.remove (s.tables.below uids) }

/-- A run that goes on holds nothing. -/
def Unheld (t : Store.Tables) : Prop := ∀ q ∈ t.runs, GoesOn q → q.heldStepInstanceUid = none

/-- No run has an error or an output before its end, and none holds a step while it goes on. -/
structure Clean (t : Store.Tables) : Prop where
  unended : ∀ q ∈ t.runs, q.runStatus.isTerminal = false → q.errorMessages = [] ∧ q.outputData = []
  unheld : Unheld t

/-- A scene in which the invariant holds, and in which the runs are clean. -/
structure Sound (setup : Setup) (G : Uid → Prop) (s : Scene) : Prop where
  standing : Standing setup G s
  clean : Clean s.tables

theorem Sound.keyed (h : Sound setup G s) : s.tables.Keyed := by
  obtain ⟨ds, hst, -⟩ := h.standing
  exact hst.keyed

/-- What an operation has done since a scene, with its log. -/
inductive Deeds (setup : Setup) (G : Uid → Prop) (o : Operation) (s₀ : Scene) :
    List Moment → Scene → Prop where
  | none (h : Sound setup G s₀) : Deeds setup G o s₀ [] s₀
  | more {log l : List Moment} {s s' : Scene} (before : Deeds setup G o s₀ log s)
      (deed : Deed setup G o s₀ log s l s') (h : Sound setup G s') :
      Deeds setup G o s₀ (log ++ l) s'

theorem Deeds.sound (h : Deeds setup G o s₀ log s) : Sound setup G s := by
  cases h with
  | none h => exact h
  | more _ _ h => exact h

theorem Deeds.idle (h : Deeds setup G o s₀ log s) {l : List Moment}
    (hl : ∀ m ∈ l, m.scene = s ∧ m.Idle) : Deeds setup G o s₀ (log ++ l) s :=
  .more h (.idle l hl) h.sound

/-- To make a run takes identifiers, a reading of the clock, and one call of the store. -/
theorem call_of_making {new : WorkflowInstance} {instances : List StepInstance} {t : Scene}
    {time : Instant} {m : Moment} (hl : ∀ m ∈ l, m.call = .newUid)
    (hm : m ∈ l ++ [⟨t, .now, time⟩, ⟨t, .store (.insertRun new instances), .ok ()⟩]) :
    m.call = .newUid ∨ m.call = .now ∨ m.call = .store (.insertRun new instances) := by
  rcases List.mem_append.1 hm with hm | hm
  · exact .inl (hl m hm)
  · rcases List.mem_cons.1 hm with rfl | hm
    · exact .inr (.inl rfl)
    · rw [List.mem_singleton.1 hm]
      exact .inr (.inr rfl)

/-! ### Clean runs -/

theorem GoesOn.not_terminal {q : WorkflowInstance} (h : GoesOn q) :
    ¬q.runStatus.isTerminal = true := by
  rw [h.1]
  exact Bool.false_ne_true

theorem Clean.putRun {t : Store.Tables} (h : Clean t) {q : WorkflowInstance}
    (hq : q.runStatus.isTerminal = false → q.errorMessages = [] ∧ q.outputData = [])
    (hheld : GoesOn q → q.heldStepInstanceUid = none) : Clean (t.putRun q) := by
  constructor
  · intro p hp hgoes
    rcases Store.mem_overwrite hp with rfl | ⟨hp, -⟩
    · exact hq hgoes
    · exact h.unended p hp hgoes
  · intro p hp hgoes
    rcases Store.mem_overwrite hp with rfl | ⟨hp, -⟩
    · exact hheld hgoes
    · exact h.unheld p hp hgoes

theorem Clean.putStep {t : Store.Tables} (h : Clean t) (x : StepInstance) : Clean (t.putStep x) :=
  ⟨h.unended, h.unheld⟩

theorem Clean.remove {t : Store.Tables} (h : Clean t) (uids : List Uid) : Clean (t.remove uids) :=
  ⟨fun q hq ↦ h.unended q (List.mem_filter.1 hq).1, fun q hq ↦ h.unheld q (List.mem_filter.1 hq).1⟩

theorem Clean.putRun_of_terminal {t : Store.Tables} (h : Clean t) {q : WorkflowInstance}
    (hq : q.runStatus.isTerminal = true) : Clean (t.putRun q) :=
  h.putRun (fun hno ↦ absurd (hq.symm.trans hno) (by decide)) fun hgoes ↦
    absurd hq hgoes.not_terminal

/-- A run that has not come to its end may change in anything but its errors and its output. -/
theorem Clean.putRun_of_same {t : Store.Tables} (h : Clean t) {q p : WorkflowInstance}
    (hq : q ∈ t.runs) (hgoes : q.runStatus.isTerminal = false)
    (hsame : p.errorMessages = q.errorMessages ∧ p.outputData = q.outputData)
    (hheld : GoesOn p → p.heldStepInstanceUid = none) : Clean (t.putRun p) := by
  refine h.putRun (fun _ ↦ ?_) hheld
  rw [hsame.1, hsame.2]
  exact h.unended q hq hgoes

end Engine

end Orchestration
