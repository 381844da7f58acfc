import Orchestration.Queue.Channel
import Orchestration.Error
import Orchestration.Json.Decoder

/-!
# The queue in memory

Messages wait on their channel in the order in which they were put there. Whoever takes a message
settles it: it is done with, waits again behind all others, or is set aside. Announcements are only
logged, because nobody waits for them.

Since every message carries its channel, one list holds the messages of all of them: what waits on a
channel is the part of the list that belongs to it.
-/

namespace Orchestration

structure Envelope where
  channel : Channel
  payload : String
deriving DecidableEq, Repr, Inhabited

/-- Decodes the document that a payload spells. A payload is a text, and all of it is read: what
stands under a name that nobody asks for has to be a document too. -/
def decodePayload (decode : Json.Decoder α) (payload : String) : Except EngineError α :=
  match (Json.parse? payload).bind decode with
  | some a => .ok a
  | none => .error .undecodable

/-- A queue with a log of all that was published. -/
structure Queue where
  pending : List Envelope := []
  published : List Envelope := []
  rejected : List Envelope := []
deriving DecidableEq, Repr, Inhabited

namespace Queue

/-- The payloads among some messages that belong to a channel. -/
def payloads (channel : Channel) (messages : List Envelope) : List String :=
  (messages.filter fun m => m.channel = channel).map (·.payload)

def waiting (q : Queue) (channel : Channel) : List String := payloads channel q.pending

def push (q : Queue) (m : Envelope) : Queue := { q with pending := q.pending ++ [m] }

def publish (q : Queue) (m : Envelope) : Queue :=
  let q := { q with published := q.published ++ [m] }
  if m.channel = .notifications then q else q.push m

/-- Takes the message that has waited longest on a channel. -/
def take (q : Queue) (channel : Channel) : Option String × Queue :=
  match q.pending.find? fun m => m.channel = channel with
  | some m => (some m.payload, { q with pending := q.pending.erase m })
  | none => (none, q)

def drain (q : Queue) (channel : Channel) : List String × Queue :=
  (q.waiting channel, { q with pending := q.pending.filter fun m => m.channel ≠ channel })

/-- Takes all messages of a channel and decodes them. They have been taken also where one of them
does not decode, and then nobody is given any. -/
def drainAs (decode : Json.Decoder α) (q : Queue) (channel : Channel) :
    Except EngineError (List α) × Queue :=
  let (payloads, rest) := q.drain channel
  (payloads.mapM (decodePayload decode), rest)

/-- Settles a message that has been taken. -/
def settle (q : Queue) (m : Envelope) : Disposition → Queue
  | .ack => q
  | .retry => q.push m
  | .reject => { q with rejected := q.rejected ++ [m] }

/-! ## What waits after each operation -/

theorem waiting_push (q : Queue) (m : Envelope) (c : Channel) :
    (q.push m).waiting c = q.waiting c ++ if m.channel = c then [m.payload] else [] := by
  by_cases h : m.channel = c <;> simp [push, waiting, payloads, h]

theorem waiting_publish (q : Queue) (m : Envelope) (c : Channel) :
    (q.publish m).waiting c =
      q.waiting c ++ if m.channel = c ∧ c ≠ .notifications then [m.payload] else [] := by
  unfold publish
  by_cases hn : m.channel = .notifications
  · have : ¬(m.channel = c ∧ c ≠ .notifications) := fun h => h.2 (h.1 ▸ hn)
    simp [hn, waiting]
    intro h
    exact h.symm
  · rw [if_neg hn, waiting_push]
    by_cases h : m.channel = c
    · have hc : c ≠ .notifications := h ▸ hn
      simp [h, hc, waiting]
    · simp [h, waiting]

end Queue

end Orchestration
