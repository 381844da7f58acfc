import Orchestration.Engine.Deployment
import Orchestration.Queue.Basic

/-!
# Handling messages

The engine consumes results and the outcomes of waits. A message that spells neither is dropped,
like any that can never be handled; one that met a fault of the infrastructure is handed out again.
-/

namespace Orchestration

namespace Engine

namespace Setup

variable (setup : Setup)

/-- Handles the payload of a message, which may fail. -/
def consume (channel : Channel) (payload : String) : Action Unit := do
  match channel with
  | .results =>
    setup.processResult (← Action.ofExcept (decodePayload StepResult.decode payload))
  | .deployments =>
    setup.processOutcome (← Action.ofExcept (decodePayload DeploymentOutcome.decode payload))
  | .work | .notifications => throw (.notConsumed channel.text)

/-- Handles the payload of a message and says how the message is settled. -/
def handle (channel : Channel) (payload : String) : Program Call.Answer Disposition := do
  return dispositionOf (← (setup.consume channel payload).run)

end Setup

end Engine

end Orchestration
