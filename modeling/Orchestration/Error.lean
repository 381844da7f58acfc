import Orchestration.Expression.Fault
import Orchestration.Expression.Reference
import Orchestration.Status
import Orchestration.Uid

/-!
# Errors

An error is what went wrong, with the data that its words need. Its kind decides what becomes of the
operation: whether the run ends because its configuration is wrong, whether a message is handed out
again, and with which status a request is answered.
-/

namespace Orchestration

inductive ErrorKind where
  | database
  | notFound
  | validation
  | conflict
  | internal
  | config
  | queue
  | serialization
  | expression
  | dataPath
  | externalService
  | unexpectedStatus
deriving DecidableEq, Repr, Inhabited

namespace ErrorKind

/-- The words in front of an error's own. -/
def label : ErrorKind → String
  | .database => "Database error"
  | .notFound => "Resource not found"
  | .validation => "Validation error"
  | .conflict => "Conflict"
  | .internal => "Internal error"
  | .config => "Configuration error"
  | .queue => "Queue error"
  | .serialization => "Serialization error"
  | .expression => "Expression error"
  | .dataPath => "Data path error"
  | .externalService => "External service error"
  | .unexpectedStatus => "Unexpected status"

def name : ErrorKind → String
  | .database => "Database"
  | .notFound => "NotFound"
  | .validation => "Validation"
  | .conflict => "Conflict"
  | .internal => "Internal"
  | .config => "Config"
  | .queue => "Queue"
  | .serialization => "Serialization"
  | .expression => "Expression"
  | .dataPath => "DataPath"
  | .externalService => "ExternalService"
  | .unexpectedStatus => "UnexpectedStatus"

def all : List ErrorKind :=
  [.database, .notFound, .validation, .conflict, .internal, .config, .queue, .serialization,
    .expression, .dataPath, .externalService, .unexpectedStatus]

/-- Whether errors of a kind are told in words. A database and a document that does not decode have
words of their own, which are not the engine's. -/
def hasWords : ErrorKind → Bool
  | .database | .serialization => false
  | .notFound | .validation | .conflict | .internal | .config | .queue | .expression | .dataPath
  | .externalService | .unexpectedStatus => true

/-- Whether the fault lies in the configuration of a step, so that trying again is no use. -/
def isConfiguration : ErrorKind → Bool
  | .expression | .dataPath | .config => true
  | .database | .notFound | .validation | .conflict | .internal | .queue | .serialization
  | .externalService | .unexpectedStatus => false

/-- Whether the fault lies in the infrastructure, so that trying again may help. -/
def isTransient : ErrorKind → Bool
  | .database | .queue | .externalService | .internal => true
  | .notFound | .validation | .conflict | .config | .serialization | .expression | .dataPath
  | .unexpectedStatus => false

/-- The status of the answer to a request that fails. -/
def httpStatus : ErrorKind → Nat
  | .database | .internal | .config => 500
  | .notFound => 404
  | .validation | .expression | .dataPath | .unexpectedStatus => 422
  | .conflict => 409
  | .queue => 503
  | .serialization => 400
  | .externalService => 502

end ErrorKind

inductive EngineError where
  /-- An expression is blank. -/
  | emptyExpression
  /-- An expression cannot be read. -/
  | cannotParse (source : String) (fault : Expression.Fault)
  /-- An expression cannot be evaluated. -/
  | cannotEvaluate (source : String) (fault : Expression.Fault)
  /-- An expression has the undefined value. -/
  | noValue (source : String)
  /-- The value of an expression is no truth value. -/
  | notBoolean (source shown : String)
  /-- The value of an expression is no number. -/
  | notNumeric (source shown : String)
  /-- A path leads to nothing in the data of a step. -/
  | keyNotFound (path : List String) (side : Expression.Section) (step : String)
  /-- A reference names a step that its run does not have. -/
  | stepNotFound (name : String) (run : Uid)
  /-- A reference to the step itself stands where there is none. -/
  | selfOutsideStep
  /-- A document does not decode, or a value has no document. -/
  | undecodable
  /-- There is no such run. -/
  | runNotFound (run : Uid)
  /-- There is no such step. -/
  | stepInstanceNotFound (step : Uid)
  /-- A run has no first step. -/
  | noFirstStep (run : Uid)
  /-- A decision has neither a case for its value nor a default. -/
  | noCase (value : String)
  /-- The catalog has no such function. -/
  | functionNotFound (function : Uid)
  /-- The catalog has no such workflow. -/
  | workflowNotFound (workflow : Uid)
  /-- A workflow has no steps. -/
  | noSteps (workflow : String)
  /-- Messages of a channel are not for the engine. -/
  | notConsumed (channel : String)
  /-- There is such a run already. -/
  | runExists (run : Uid)
  /-- A run that is to be stopped has come to its end. -/
  | runFinished (run : Uid) (status : RunStatus)
  /-- A run has not the status that it needs for a change. -/
  | runNotIn (run : Uid) (status expected : RunStatus)
  /-- A function that a run waits for has failed to deploy. -/
  | deploymentFailed (function : String)
  /-- A function that is to be called directly has no address. -/
  | noServiceUrl (function : String)
  /-- A function has answered a call with a status that is no success. -/
  | functionResponded (status body : String)
  /-- A result has a status that a step cannot end with. -/
  | unexpectedStatus (step : String) (status : RunStatus)
  /-- A chain of sub-workflows that start one another is longer than the engine follows. -/
  | nestedTooDeep (workflow : Uid)
  /-- A count would leave the integers of 32 bits. -/
  | countOverflow
  /-- The database has failed. -/
  | database
  /-- Another error, in the words of whoever reports it. -/
  | other (kind : ErrorKind) (words : String)
deriving DecidableEq, Repr, Inhabited

namespace EngineError

def kind : EngineError → ErrorKind
  | .emptyExpression | .cannotParse .. | .cannotEvaluate .. | .noValue _ | .notBoolean ..
  | .notNumeric .. => .expression
  | .keyNotFound .. | .stepNotFound .. | .selfOutsideStep => .dataPath
  | .undecodable => .serialization
  | .runNotFound _ | .stepInstanceNotFound _ | .noFirstStep _ | .noCase _ | .functionNotFound _
  | .workflowNotFound _ => .notFound
  | .noSteps _ | .notConsumed _ => .validation
  | .runExists _ | .runFinished .. | .runNotIn .. => .conflict
  | .deploymentFailed _ | .noServiceUrl _ | .functionResponded .. => .externalService
  | .unexpectedStatus .. => .unexpectedStatus
  | .nestedTooDeep _ | .countOverflow => .internal
  | .database => .database
  | .other kind _ => kind

/-- An error in its own words, without its kind. -/
def words : EngineError → String
  | .emptyExpression => "Expression is empty"
  | .cannotParse source fault => s!"Cannot parse '{source}': {fault.message}"
  | .cannotEvaluate source fault => s!"Cannot evaluate '{source}': {fault.message}"
  | .noValue source => s!"Expression '{source}' produced no value"
  | .notBoolean source shown => s!"Expression '{source}' is not boolean: {shown}"
  | .notNumeric source shown => s!"Expression '{source}' is not numeric: {shown}"
  | .keyNotFound path side step =>
    "Key '" ++ ".".intercalate path ++ "' not found in " ++ side.name ++ " of step '" ++ step ++ "'"
  | .stepNotFound name run => s!"Step '{name}' not found in workflow instance {run}"
  | .selfOutsideStep => "'self' is only available inside a step"
  | .undecodable => ""
  | .runNotFound run => s!"Workflow instance {run} not found"
  | .stepInstanceNotFound step => s!"Step instance {step} not found"
  | .noFirstStep run => s!"No FIRST step in workflow instance {run}"
  | .noCase value => s!"No decision case matches '{value}' and no default case exists"
  | .functionNotFound function => s!"Function {function} not found"
  | .workflowNotFound workflow => s!"Workflow {workflow} not found"
  | .noSteps workflow => s!"Workflow '{workflow}' has no steps"
  | .notConsumed channel => s!"Engine does not consume the {channel} channel"
  | .runExists run => s!"Workflow instance {run} already exists"
  | .runFinished run status => s!"Run {run} already finished with {status}"
  | .runNotIn run status expected => s!"Run {run} is {status}, expected {expected}"
  | .deploymentFailed function => s!"Deployment of function '{function}' failed"
  | .noServiceUrl function => s!"Function '{function}' has no service URL"
  | .functionResponded status body => s!"Function responded with {status}: {body}"
  | .unexpectedStatus step status => s!"Step '{step}' reported {status}"
  | .nestedTooDeep workflow => s!"Workflow {workflow} is nested too deeply"
  | .countOverflow => "attempt to add with overflow"
  | .database => ""
  | .other _ words => words

def message (e : EngineError) : String := e.kind.label ++ ": " ++ e.words

/-- The members of a document that tells of an error. -/
def toMembers (e : EngineError) : List (String × Json) :=
  ("error", .str e.kind.name) ::
    if e.kind.hasWords then [("message", .str e.message)] else []

/-- Whether the fault lies in the configuration of a step. -/
def isConfiguration (e : EngineError) : Bool := e.kind.isConfiguration

end EngineError

/-- What becomes of a message that has been handled. -/
inductive Disposition where
  | ack
  | retry
  | reject
deriving DecidableEq, Repr, Inhabited

def Disposition.text : Disposition → String
  | .ack => "ack"
  | .retry => "retry"
  | .reject => "reject"

/-- A message whose handling succeeds is acknowledged. One that met a fault of the infrastructure is
handed out again, and any other is dropped. -/
def dispositionOf : Except EngineError Unit → Disposition
  | .ok () => .ack
  | .error e => if e.kind.isTransient then .retry else .reject

end Orchestration
