import Orchestration.Definition
import Orchestration.Function
import Orchestration.Http.Exchange

/-!
# Catalogs behind an address

The catalogs of functions and workflows are services of their own. An inquiry is one request to such
a service, with the reading of its answer. A failure names what the inquiry was about: an answer
that there is no such thing differs from all others that are no success.
-/

namespace Orchestration

namespace Catalog

/-- A request to a catalog whose answer spells a value. -/
structure Inquiry (α : Type) where
  method : String
  /-- What is asked of the service, behind its address. -/
  path : String
  /-- What the inquiry is about, in the words of a failure. -/
  subject : String
  /-- The value that the body of an answer spells. -/
  read : String → Option α

namespace Inquiry

def readDocument (decode : Json.Decoder α) (body : String) : Option α :=
  (Json.parse? body).bind decode

def function (uid : Uid) : Inquiry FunctionInfo where
  method := "GET"
  path := s!"/api/functions/{uid}"
  subject := s!"Function {uid}"
  read := readDocument FunctionInfo.decode

/-- Asks for the deployment of a function. What the answer says is of no interest. -/
def deployment (uid : Uid) : Inquiry Unit where
  method := "POST"
  path := s!"/api/functions/{uid}/deploy"
  subject := s!"Deploy function {uid}"
  read := fun _ => some ()

def workflow (uid : Uid) : Inquiry WorkflowDefinition where
  method := "GET"
  path := s!"/api/workflows/{uid}"
  subject := s!"Workflow {uid}"
  read := readDocument WorkflowDefinition.decode

def steps (workflow : Uid) : Inquiry (List StepDefinition) where
  method := "GET"
  path := s!"/api/workflows/{workflow}/steps"
  subject := s!"Steps of workflow {workflow}"
  read := readDocument (Json.Decoder.list StepDefinition.decode)

variable (q : Inquiry α)

/-- The address of an inquiry at a service. -/
def address (base : String) : String := Http.withoutSlashes base ++ q.path

/-- The error that an answer without success stands for. -/
def failure (r : Http.Response) : EngineError :=
  if r.status = 404 then .other .notFound s!"{q.subject}: {r.text}"
  else
    .other .externalService
      s!"{q.subject} failed with status {Http.statusText r.status}: {r.text}"

def outcome (r : Http.Response) : Except EngineError α :=
  if r.isSuccess then
    match q.read r.text with
    | some a => .ok a
    | none => .error Http.bodyError
  else .error (q.failure r)

/-- What comes of an inquiry at a service. -/
def ask (service : Option Http.Response) (base : String) : Except EngineError α := do
  q.outcome (← Http.reach service (q.address base))

end Inquiry

end Catalog

end Orchestration
