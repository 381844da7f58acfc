import Orchestration.Broker.Client

/-!
# A scripted broker

A broker that knows whether the stream is there and which consumers are, and that can be made to
fail requests. It notes all requests that it has been sent.

What is put onto a channel waits until a subscriber of the channel asks for messages for the first
time. From then on everything goes to that subscriber at once, until its stream has ended. Messages
are numbered as they are sent. A broker also sends words about the stream itself; only those that
end it can be noticed.
-/

namespace Orchestration

namespace Broker

/-! ## What is sent to subscribers -/

inductive Parcel where
  /-- A message; one without an address for its settlement cannot be settled. -/
  | message (payload : String) (isSettleable : Bool)
  /-- A word about the stream, which it may end. -/
  | status (ends : Bool)
deriving DecidableEq, Repr, Inhabited

structure Delivery where
  channel : Channel
  payload : String
  /-- The number of the message, if it can be settled. -/
  number : Option Nat
deriving DecidableEq, Repr, Inhabited

inductive Arrival where
  | delivery (d : Delivery)
  | ending
deriving DecidableEq, Repr, Inhabited

structure Subscriber where
  channel : Channel
  /-- Whether messages have been asked for. -/
  isAsking : Bool := false
  hasEnded : Bool := false
  arrivals : List Arrival := []
deriving DecidableEq, Repr, Inhabited

/-- A broker and the subscribers at it. -/
structure Script where
  topology : Topology
  hasStream : Bool := false
  consumers : List String := []
  /-- How often requests fail from now on, by their names. -/
  outages : List (String × Nat) := []
  /-- What waits for a subscriber. -/
  waiting : List (Channel × Parcel) := []
  subscribers : List Subscriber := []
  /-- How many messages have been sent. -/
  sentCount : Nat := 0
  /-- What has been read to be settled later. -/
  deliveries : List Delivery := []
  /-- The requests since the last look. -/
  requests : List Call := []
deriving DecidableEq, Repr, Inhabited

namespace Script

/-! ## Requests -/

/-- The names under which a request can be made to fail. -/
def outageNames : Call → List String
  | .streamInfo _ => ["stream_info"]
  | .createStream _ => ["create_stream"]
  | .consumerInfo .. => ["consumer_info"]
  | .createConsumer .. => ["create_consumer"]
  | .publish .. => ["no_responders", "publish"]
  | .notify .. | .settle .. => []

/-- Makes a request fail so many times from now on. -/
def setOutage (s : Script) (name : String) (count : Nat) : Script :=
  { s with outages := (name, count) :: s.outages.filter fun o => o.1 ≠ name }

/-- The script after a failure under one of some names, if there is one. -/
def outage? (s : Script) (names : List String) : Option Script :=
  names.findSome? fun name =>
    match s.outages.lookup name with
    | some (left + 1) => some (s.setOutage name left)
    | _ => none

/-- Carries out a request that does not fail by an outage. -/
def serve (s : Script) : Call → Bool × Script
  | .streamInfo _ => (s.hasStream, s)
  | .createStream _ => (true, { s with hasStream := true })
  | .consumerInfo _ consumer => (s.consumers.contains consumer, s)
  | .createConsumer _ config => (true, { s with consumers := config.durable :: s.consumers })
  | .publish .. | .notify .. | .settle .. => (true, s)

/-- Answers a call. What cannot be settled is not asked for. -/
def answer (c : Call) (s : Script) : c.Answer × Script :=
  match c with
  | .settle none _ => (false, s)
  | c =>
    let s := { s with requests := s.requests ++ [c] }
    match s.outage? (outageNames c) with
    | some s => (false, s)
    | none => s.serve c

def act (s : Script) (a : Action α) : Except EngineError α × Script := a.run.run answer s

/-- Loses the stream and the consumers. -/
def forget (s : Script) : Script := { s with hasStream := false, consumers := [] }

/-! ## Deliveries -/

/-- What a parcel is when it is sent as the message of a number. -/
def arrival? (channel : Channel) (number : Nat) : Parcel → Option Arrival
  | .message payload isSettleable =>
    some (.delivery ⟨channel, payload, if isSettleable then some number else none⟩)
  | .status true => some .ending
  | .status false => none

/-- Changes the subscriber of a number, counted from zero. -/
def setSubscriber (s : Script) (index : Nat) (subscriber : Subscriber) : Script :=
  { s with subscribers := s.subscribers.set index subscriber }

def send (s : Script) (index : Nat) (subscriber : Subscriber) (p : Parcel) : Script :=
  let isMessage := match p with
    | .message .. => true
    | .status _ => false
  let sentCount := if isMessage then s.sentCount + 1 else s.sentCount
  let arrived := (arrival? subscriber.channel sentCount p).toList
  let subscriber := { subscriber with arrivals := subscriber.arrivals ++ arrived }
  { s with sentCount }.setSubscriber index subscriber

def deliver (s : Script) (channel : Channel) (p : Parcel) : Script :=
  let isReady (subscriber : Subscriber) : Bool :=
    subscriber.channel = channel && subscriber.isAsking && !subscriber.hasEnded
  match s.subscribers.findIdx? isReady with
  | some index =>
    match s.subscribers[index]? with
    | some subscriber => s.send index subscriber p
    | none => s
  | none => { s with waiting := s.waiting ++ [(channel, p)] }

/-- Has the subscriber of a number ask for messages: whatever waits is sent to it. -/
def ask (s : Script) (index : Nat) (subscriber : Subscriber) : Script :=
  let isMine (e : Channel × Parcel) : Bool := e.1 = subscriber.channel
  let mine := s.waiting.filter isMine
  let s := { s with waiting := s.waiting.filter fun e => !isMine e }
  let s := s.setSubscriber index { subscriber with isAsking := true }
  mine.foldl (fun s (channel, p) => s.deliver channel p) s

inductive Reading where
  | delivery (d : Delivery)
  | nothing
  | ended
deriving DecidableEq, Repr, Inhabited

/-- Reads what has arrived at the subscriber of a number. -/
def read (s : Script) (index : Nat) : Reading × Script :=
  match s.subscribers[index]? with
  | none => (.nothing, s)
  | some subscriber =>
    if subscriber.hasEnded then (.ended, s)
    else
      match subscriber.arrivals with
      | [] => (.nothing, s)
      | .ending :: _ => (.ended, s.setSubscriber index { subscriber with hasEnded := true })
      | .delivery d :: arrivals =>
        (.delivery d, s.setSubscriber index { subscriber with arrivals })

/-- Reads the next message of the subscriber of a number. -/
def next (s : Script) (index : Nat) : Reading × Script :=
  match s.subscribers[index]? with
  | none => (.nothing, s)
  | some subscriber =>
    let s := if subscriber.isAsking then s else s.ask index subscriber
    s.read index

/-- Reads the next message of the subscriber of a number and keeps it to be settled later. -/
def receive (s : Script) (index : Nat) : Reading × Script :=
  match s.next index with
  | (.delivery d, s) => (.delivery d, { s with deliveries := s.deliveries ++ [d] })
  | other => other

def addSubscriber (s : Script) (channel : Channel) : Script :=
  { s with subscribers := s.subscribers ++ [{ channel }] }

def subscribe (s : Script) (channel : Channel) : Except EngineError Unit × Script :=
  match s.act (Broker.subscribe s.topology channel) with
  | (.ok (), s) => (.ok (), s.addSubscriber channel)
  | failed => failed

/-! ## Consuming -/

/-- Handles what arrives at a subscriber until its stream ends or no message is left. Whether a
message could be settled is not asked. -/
def handleAll (handle : Channel → String → Disposition) (index : Nat) :
    Nat → Script → List Delivery → List Delivery × Script
  | 0, s, handled => (handled, s)
  | fuel + 1, s, handled =>
    match s.next index with
    | (.delivery d, s) =>
      let (_, s) := s.act (settle d.number (handle d.channel d.payload))
      handleAll handle index fuel s (handled ++ [d])
    | (_, s) => (handled, s)

/-- Subscribes to a channel and handles its messages. -/
def consume (s : Script) (channel : Channel) (handle : Channel → String → Disposition) :
    Except EngineError (List Delivery) × Script :=
  match s.subscribe channel with
  | (.error e, s) => (.error e, s)
  | (.ok (), s) =>
    let (handled, s) := s.handleAll handle (s.subscribers.length - 1) (s.waiting.length + 1) []
    let subscribers := s.subscribers.dropLast
    (.ok handled, { s with subscribers })

end Script

end Broker

end Orchestration
