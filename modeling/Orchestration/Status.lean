import Orchestration.Text.Case

/-!
# Statuses and positions

One vocabulary of statuses serves runs and steps. A run that has reached a terminal status keeps it.
-/

namespace Orchestration

inductive RunStatus where
  | new
  | deployingFunctions
  | running
  | paused
  | skipped
  | completed
  | completedWithErrors
  | failed
  | failedWithTerminalError
  | canceled
  | timedOut
  | stopped
deriving DecidableEq, Repr, Inhabited

namespace RunStatus

def text : RunStatus → String
  | .new => "NEW"
  | .deployingFunctions => "DEPLOYING_FUNCTIONS"
  | .running => "RUNNING"
  | .paused => "PAUSED"
  | .skipped => "SKIPPED"
  | .completed => "COMPLETED"
  | .completedWithErrors => "COMPLETED_WITH_ERRORS"
  | .failed => "FAILED"
  | .failedWithTerminalError => "FAILED_WITH_TERMINAL_ERROR"
  | .canceled => "CANCELED"
  | .timedOut => "TIMED_OUT"
  | .stopped => "STOPPED"

instance : ToString RunStatus := ⟨text⟩

def all : List RunStatus :=
  [.new, .deployingFunctions, .running, .paused, .skipped, .completed, .completedWithErrors,
    .failed, .failedWithTerminalError, .canceled, .timedOut, .stopped]

/-- The status of a word exactly as it is written. -/
def ofText? (s : String) : Option RunStatus := all.find? fun status => status.text = s

theorem mem_all (s : RunStatus) : s ∈ all := by cases s <;> decide

theorem ofText?_text (s : RunStatus) : ofText? s.text = some s := by cases s <;> decide

/-- Reads a status in any case, also in the spelling `CANCELLED`. What is not a status is returned
in upper case. -/
def parse (s : String) : Except String RunStatus :=
  let word := Text.upper s
  if word = "CANCELLED" then .ok .canceled
  else
    match ofText? word with
    | some status => .ok status
    | none => .error word

/-- The terminal statuses: a run that has one keeps it. -/
def terminalStates : List RunStatus :=
  [.completed, .completedWithErrors, .failed, .failedWithTerminalError, .canceled, .timedOut,
    .stopped]

/-- Whether a run has come to its end. -/
def isTerminal : RunStatus → Bool
  | .completed | .completedWithErrors | .failed | .failedWithTerminalError | .canceled
  | .timedOut | .stopped => true
  | .new | .deployingFunctions | .running | .paused | .skipped => false

/-- The status that a parent step is told when a run of a sub-workflow ends. -/
def asParentStepResult : RunStatus → RunStatus
  | .completed | .completedWithErrors => .completed
  | .timedOut => .timedOut
  | .failedWithTerminalError => .failedWithTerminalError
  | .canceled | .stopped => .canceled
  | .new | .deployingFunctions | .running | .paused | .skipped | .failed => .failed

end RunStatus

/-- The position of a step in its run. -/
inductive OrderLabel where
  | first
  | intermediate
  | last
deriving DecidableEq, Repr, Inhabited

namespace OrderLabel

def text : OrderLabel → String
  | .first => "FIRST"
  | .intermediate => "INTERMEDIATE"
  | .last => "LAST"

def all : List OrderLabel := [.first, .intermediate, .last]

def ofText? (s : String) : Option OrderLabel := all.find? fun label => label.text = s

theorem ofText?_text (l : OrderLabel) : ofText? l.text = some l := by cases l <;> decide

/-- The position of the step at an index of a run with so many steps. The only step of a run is its
first. -/
def forPosition (index length : Nat) : OrderLabel :=
  if index = 0 then .first else if index + 1 = length then .last else .intermediate

end OrderLabel

/-- The kind of a step's control structure. -/
inductive ControlStructure where
  | simple
  | switch
  | doWhile
  | subWorkflow
deriving DecidableEq, Repr, Inhabited

namespace ControlStructure

def text : ControlStructure → String
  | .simple => "SIMPLE"
  | .switch => "SWITCH"
  | .doWhile => "DO_WHILE"
  | .subWorkflow => "SUB_WORKFLOW"

def all : List ControlStructure := [.simple, .switch, .doWhile, .subWorkflow]

def ofText? (s : String) : Option ControlStructure := all.find? fun c => c.text = s

theorem ofText?_text (c : ControlStructure) : ofText? c.text = some c := by cases c <;> decide

end ControlStructure

end Orchestration
