import Orchestration.Error
import Orchestration.Program
import Orchestration.Queue.Topology

/-!
# Using a message broker

A broker keeps the messages of consumed channels in a stream and hands them to a durable consumer of
each channel. The engine makes the stream and the consumers where they are not there. Announcements
are sent past the stream: nobody answers for them, and nobody consumes them.

What is asked of a broker is a program over requests, each of which may fail. A failure is told in
the engine's words, or in none where only the broker has words for it.
-/

namespace Orchestration

namespace Broker

/-! ## Requests -/

structure StreamConfig where
  name : String
  subjects : List String
  /-- After how many seconds a message is dropped. -/
  maxAgeSeconds : Nat
  storage : String
deriving DecidableEq, Repr, Inhabited

structure ConsumerConfig where
  durable : String
  filterSubject : String
deriving DecidableEq, Repr, Inhabited

inductive Call where
  | streamInfo (stream : String)
  | createStream (config : StreamConfig)
  | consumerInfo (stream consumer : String)
  | createConsumer (stream : String) (config : ConsumerConfig)
  /-- Puts a message into the stream, which is acknowledged. -/
  | publish (subject payload : String)
  /-- Sends a message to whoever listens. -/
  | notify (subject payload : String)
  /-- Settles a delivery, which has a number if it can be settled. -/
  | settle (delivery : Option Nat) (disposition : Disposition)
deriving DecidableEq, Repr, Inhabited

/-- What a call answers: whether it was successful. -/
abbrev Call.Answer : Call → Type := fun _ => Bool

/-- A program over a broker that may fail. -/
abbrev Action (α : Type) : Type := ExceptT EngineError (Program Call.Answer) α

/-- A failure of the queue in the engine's words. -/
def failure (words : String) : EngineError := .other .queue words

/-- A failure of the queue that only the broker has words for. -/
def unnamedFailure : EngineError := failure ""

def succeeds (c : Call) : Action Bool := ExceptT.lift (Program.ask c)

/-- Makes a call that must be successful. -/
def request (e : EngineError) (c : Call) : Action Unit := do
  unless ← succeeds c do throw e

/-- Whether a stream can have a name. Nothing is asked about other names. -/
def isStreamName (name : String) : Bool :=
  !name.isEmpty && !name.toList.any fun c => [' ', '\t', '\n', '\x0c', '\r', '.'].contains c

/-! ## The stream and its consumers -/

/-- The stream of a topology: its messages are kept on disk for a day. -/
def streamConfig (t : Topology) : StreamConfig :=
  { name := t.stream
    subjects := t.streamSubjects
    maxAgeSeconds := 24 * 3600
    storage := "file" }

def consumerConfig (t : Topology) (channel : Channel) : ConsumerConfig :=
  { durable := t.durableName channel, filterSubject := t.subject channel }

def findStream (t : Topology) : Action Bool :=
  if isStreamName t.stream then succeeds (.streamInfo t.stream) else return false

/-- Makes the stream where it is not there. -/
def ensureStream (t : Topology) : Action Unit := do
  unless ← findStream t do
    if isStreamName t.stream then
      request (failure "JetStream error") (.createStream (streamConfig t))
    else throw (failure "JetStream error")

/-- Makes the consumer of a channel where it is not there. -/
def ensureConsumer (t : Topology) (channel : Channel) : Action Unit := do
  unless ← findStream t do throw unnamedFailure
  unless ← succeeds (.consumerInfo t.stream (t.durableName channel)) do
    request unnamedFailure (.createConsumer t.stream (consumerConfig t channel))

/-! ## Messages -/

def publish (t : Topology) (channel : Channel) (payload : String) : Action Unit :=
  if channel = .notifications then
    request (failure "Publish error") (.notify (t.subject channel) payload)
  else request (failure "Publish error") (.publish (t.subject channel) payload)

def subscribe (t : Topology) (channel : Channel) : Action Unit :=
  if channel = .notifications then
    throw (failure "Notifications are fire-and-forget and cannot be consumed")
  else ensureConsumer t channel

def settle (delivery : Option Nat) (disposition : Disposition) : Action Unit :=
  request (failure "Failed to settle message") (.settle delivery disposition)

def settlementText : Disposition → String
  | .ack => "+ACK"
  | .retry => "-NAK"
  | .reject => "+TERM"

end Broker

end Orchestration
