import Orchestration.Store.Call

/-!
# Runs and steps in memory

The tables hold one record a run and one a step, in the order in which they were put in. A call that
changes a record that is not there fails and changes nothing.

Several steps of a run may have one name, or one place in the order of execution. Which of them is
found by the name, and how they are listed, is left open: nobody who keeps records promises an
order. Here it is the order in which they were put in.

Counts are integers of 32 bits. A result that would be one more than its step can count is not
written: the sum breaks the call off, here as in the database.

Deleting follows the links from a run to the runs that its steps have started. The list of what has
been found grows while it is gone through (`searchFrom`). The links may form anything, cycles
included; the search comes to an end because what is appended is a run that was not in the list
before (`length_addNew_le`).
-/

namespace Orchestration

namespace Store

structure Tables where
  runs : List WorkflowInstance := []
  steps : List StepInstance := []
deriving DecidableEq, Repr, Inhabited

namespace Tables

def run? (t : Tables) (uid : Uid) : Option WorkflowInstance := t.runs.find? fun r => r.uid = uid

def step? (t : Tables) (uid : Uid) : Option StepInstance := t.steps.find? fun s => s.uid = uid

/-- Writes the record of a run over the one that it has. -/
def putRun (t : Tables) (run : WorkflowInstance) : Tables :=
  { t with runs := t.runs.map fun r => if r.uid = run.uid then run else r }

/-- Writes the record of a step over the one that it has. -/
def putStep (t : Tables) (step : StepInstance) : Tables :=
  { t with steps := t.steps.map fun s => if s.uid = step.uid then step else s }

/-- Puts in the record of a step, in the place of the one that it has. -/
def insertStep (t : Tables) (step : StepInstance) : Tables :=
  if (t.step? step.uid).isSome then t.putStep step else { t with steps := t.steps ++ [step] }

def onRun (t : Tables) (uid : Uid) (change : WorkflowInstance → α × WorkflowInstance) :
    Except EngineError α × Tables :=
  match t.run? uid with
  | some run => (.ok (change run).1, t.putRun (change run).2)
  | none => (.error (.runNotFound uid), t)

def onStep (t : Tables) (uid : Uid) (change : StepInstance → α × StepInstance) :
    Except EngineError α × Tables :=
  match t.step? uid with
  | some step => (.ok (change step).1, t.putStep (change step).2)
  | none => (.error (.stepInstanceNotFound uid), t)

/-! ## What the changes are -/

/-- A run with another status, if it may get it. -/
def withStatus (status : RunStatus) (expected : Option RunStatus) (run : WorkflowInstance) :
    Bool × WorkflowInstance :=
  if run.runStatus.isTerminal || expected.any (· ≠ run.runStatus) then (false, run)
  else (true, { run with runStatus := status })

def launched (input : Json.Object) (time : Instant) (step : StepInstance) : StepInstance :=
  { step with
    runStatus := .running
    inputData := input
    startTime := some time
    endTime := none
    failureReason := none }

/-- A step with one repetition less, if it has one left. -/
def withRetryUsed (step : StepInstance) : Bool × StepInstance :=
  if step.retryCount ≤ 0 then (false, step)
  else (true, { step with retryCount := step.retryCount - 1 })

/-- Whether a step is in the attempt that a result answers. -/
def expects (update : StepUpdate) (step : StepInstance) : Bool :=
  step.runStatus = .running && step.runCount = update.expectedRunCount

/-- A step with a result, if it is in the attempt that the result answers. -/
def withResult (update : StepUpdate) (step : StepInstance) : Bool × StepInstance :=
  if step.runStatus ≠ .running ∨ step.runCount ≠ update.expectedRunCount then (false, step)
  else
    (true,
      { step with
        runStatus := update.runStatus
        outputData := update.outputData
        failureReason := update.failureReason
        endTime := some update.endTime
        runCount := step.runCount + 1 })

/-- Whether a result would be one more than a step can count. -/
def isBeyondCount (t : Tables) (uid : Uid) (update : StepUpdate) : Bool :=
  (t.step? uid).any fun step => expects update step && step.runCount = greatestInt

/-! ## Deleting -/

/-- The runs that the steps of a run have started. -/
def childrenOf (runs : List WorkflowInstance) (parent : Uid) : List Uid :=
  (runs.filter fun r => r.parentInstanceUid = some parent).map (·.uid)

/-- Appends to what has been found those of some identifiers that have not been found before. -/
def addNew (found : List Uid) : List Uid → List Uid
  | [] => found
  | uid :: rest => addNew (if found.contains uid then found else found ++ [uid]) rest

/-- How many runs have not been found. -/
def missing (runs : List WorkflowInstance) (found : List Uid) : Nat :=
  runs.countP fun r => !found.contains r.uid

theorem missing_lt {runs : List WorkflowInstance} {found : List Uid} {uid : Uid}
    (h : ∃ r ∈ runs, r.uid = uid) (hnew : found.contains uid = false) :
    missing runs (found ++ [uid]) < missing runs found := by
  obtain ⟨r, hr, rfl⟩ := h
  obtain ⟨before, after, rfl⟩ := List.append_of_mem hr
  have hle : ∀ l : List WorkflowInstance, missing l (found ++ [r.uid]) ≤ missing l found := by
    refine fun l => List.countP_mono_left fun q _ hq => ?_
    simp only [Bool.not_eq_true', List.contains_eq_mem, decide_eq_false_iff_not, List.mem_append,
      not_or] at hq ⊢
    exact hq.1
  have hbefore := hle before
  have hafter := hle after
  simp only [missing, List.countP_append, List.countP_cons] at hbefore hafter ⊢
  have hfound : (found ++ [r.uid]).contains r.uid = true := by simp
  rw [hfound, hnew]
  simp only [Bool.not_true, Bool.not_false, Bool.false_eq_true, if_true, if_false]
  omega

/-- What is appended is made up for by the runs that are no longer missing. -/
theorem length_addNew_le {runs : List WorkflowInstance} {uids : List Uid}
    (h : ∀ uid ∈ uids, ∃ r ∈ runs, r.uid = uid) (found : List Uid) :
    (addNew found uids).length + missing runs (addNew found uids) ≤
      found.length + missing runs found := by
  induction uids generalizing found with
  | nil => exact Nat.le_refl _
  | cons uid rest ih =>
    have hrest := ih (fun u hu => h u (List.mem_cons_of_mem _ hu))
      (if found.contains uid then found else found ++ [uid])
    refine Nat.le_trans hrest ?_
    split
    · exact Nat.le_refl _
    · next hnew =>
      have hlt := missing_lt (h uid List.mem_cons_self) (Bool.eq_false_iff.2 hnew)
      rw [List.length_append, List.length_singleton]
      omega

theorem exists_run_of_mem_childrenOf (runs : List WorkflowInstance) (parent : Uid) :
    ∀ uid ∈ childrenOf runs parent, ∃ r ∈ runs, r.uid = uid := by
  intro uid h
  obtain ⟨r, hr, rfl⟩ := List.mem_map.1 h
  exact ⟨r, (List.mem_filter.1 hr).1, rfl⟩

/-- Goes through what has been found, from a position on, and appends for each run the runs that its
steps have started. -/
def searchFrom (runs : List WorkflowInstance) (found : List Uid) (position : Nat) : List Uid :=
  if h : position < found.length then
    searchFrom runs (addNew found (childrenOf runs found[position])) (position + 1)
  else found
termination_by found.length + missing runs found - position
decreasing_by
  have hle := length_addNew_le (exists_run_of_mem_childrenOf runs found[position]) found
  omega

/-- The identifiers of some runs and of all runs below them. -/
def below (t : Tables) (uids : List Uid) : List Uid := searchFrom t.runs uids 0

def remove (t : Tables) (doomed : List Uid) : Tables :=
  { runs := t.runs.filter fun r => !doomed.contains r.uid
    steps := t.steps.filter fun s => !doomed.contains s.workflowInstanceUid }

/-! ## Answering -/

/-- The runs that no other run has started, oldest first. -/
def topLevelRuns (t : Tables) : List TopLevelRun :=
  let runs := t.runs.filter fun r => r.parentInstanceUid.isNone
  ordered (fun a b => !b.createdAt.before a.createdAt) (runs.map fun r => ⟨r.uid, r.createdAt⟩)

def answer : (c : Call) → Tables → Except EngineError c.Value × Tables
  | .insertRun run steps, t =>
    if (t.run? run.uid).isSome then (.error (.runExists run.uid), t)
    else (.ok (), steps.foldl insertStep { t with runs := t.runs ++ [run] })
  | .getRun run, t => (.ok (t.run? run), t)
  | .getStep step, t => (.ok (t.step? step), t)
  | .listSteps run, t =>
    (.ok (inExecutionOrder (t.steps.filter fun s => s.workflowInstanceUid = run)), t)
  | .findStep run name, t =>
    (.ok (t.steps.find? fun s => s.workflowInstanceUid = run && s.name = name), t)
  | .updateRunStatus run status expected, t => t.onRun run (withStatus status expected)
  | .setRunStartTime run time, t => t.onRun run fun r => ((), { r with startTime := some time })
  | .setRunEndTime run time, t => t.onRun run fun r => ((), { r with endTime := some time })
  | .recordRunError run step reason, t =>
    t.onRun run fun r => ((), { r with errorMessages := Dict.insert step reason r.errorMessages })
  | .setRunOutput run output, t => t.onRun run fun r => ((), { r with outputData := output })
  | .setHeldStep run step, t => t.onRun run fun r => ((), { r with heldStepInstanceUid := step })
  | .takeHeldStep run, t =>
    t.onRun run fun r => (r.heldStepInstanceUid, { r with heldStepInstanceUid := none })
  | .updateStepStatus step status, t => t.onStep step fun s => ((), { s with runStatus := status })
  | .launchStep step input time, t => t.onStep step fun s => ((), launched input time s)
  | .setStepStartTime step time, t =>
    t.onStep step fun s => ((), { s with startTime := some time })
  | .setStepEndTime step time, t => t.onStep step fun s => ((), { s with endTime := some time })
  | .setSelectedCase step name, t =>
    t.onStep step fun s => ((), { s with selectedCaseName := some name })
  | .decrementRetry step, t => t.onStep step withRetryUsed
  | .applyStepResult step update, t =>
    if t.isBeyondCount step update then (.error .countOverflow, t)
    else t.onStep step (withResult update)
  | .listTopLevelRuns, t => (.ok t.topLevelRuns, t)
  | .deleteRuns runs, t =>
    let doomed := t.below runs
    (.ok (t.runs.countP fun r => doomed.contains r.uid), t.remove doomed)

end Tables

end Store

end Orchestration
