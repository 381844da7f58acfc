import Orchestration.Http.Address
import Orchestration.Http.Response

/-!
# Asking a service

A request reaches a service if its address can be read and somebody answers there.
-/

namespace Orchestration

namespace Http

/-- What comes of a request to an address, where everybody who is there gives one answer. -/
def reach (service : Option Response) (address : String) : Except EngineError Response :=
  match Address.parse? address, service with
  | none, _ => .error addressError
  | some _, none => .error connectionError
  | some _, some response => .ok response

/-- What a service is asked, if a request reaches it: a method, and what the address asks of it. -/
def requestLine? (service : Option Response) (method address : String) : Option String := do
  let address ← Address.parse? address
  let _ ← service
  some (method ++ " " ++ address.target)

end Http

end Orchestration
