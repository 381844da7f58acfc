import Orchestration.Queue.Channel

/-!
# Names on a message broker

Each channel has a subject. The subjects whose messages are consumed lie in one stream, and each of
them has a durable consumer.
-/

namespace Orchestration

/-- The names that the engine uses on a broker. -/
structure Topology where
  stream : String
  consumer : String
  workSubject : String
  resultSubject : String
  deploymentSubject : String
  notificationSubject : String
deriving DecidableEq, Repr, Inhabited

namespace Topology

def subject (t : Topology) : Channel → String
  | .work => t.workSubject
  | .results => t.resultSubject
  | .deployments => t.deploymentSubject
  | .notifications => t.notificationSubject

/-- The durable consumer of a channel. -/
def durableName (t : Topology) (c : Channel) : String := t.consumer ++ "-" ++ c.text

def streamSubjects (t : Topology) : List String :=
  [t.workSubject, t.resultSubject, t.deploymentSubject]

end Topology

end Orchestration
