import Mathlib.Algebra.Order.Group.Multiset
import Mathlib.Tactic.Abel
import Orchestration.Queue.Basic

/-!
# What becomes of a message

Whoever is handed a message, takes messages or settles one has the queue to itself for that moment.
Publishing takes two such moments, one for the log and one for the channel, and is done after the
second. So what any number of publishers, subscribers and takers have done is one sequence of uses
(`Use`), in which a subscriber settles a message any time after it has been handed it, or never.

The queue forgets a message that it has handed out, and only whoever has it can tell that it still
exists. A ledger (`Ledger`) therefore goes along with the queue. It keeps the messages that have
been handed out and not been settled yet, those that are done with, and in which order messages were
put on the queue and left it. Of a use that settles what is not in a subscriber's hands there is no
ledger: a delivery is settled once at most.

The books balance after every use (`Balanced.after`), because a use moves a message from one place
to the next and never to a place of another channel. This is what they say in the end
(`Ledger.messages_accounted_for`): what has been published on a channel is somewhere, and is there
as often as it was published. One of these places is nowhere: who drains a channel takes its
messages before they are decoded, and if one of them cannot be, nobody is given any
(`Ledger.not_kept_by_drain`).
-/

namespace Orchestration

namespace Queue

/-! ## What waits after a use -/

@[simp] theorem payloads_nil (c : Channel) : payloads c [] = [] := rfl

@[simp] theorem payloads_append (c : Channel) (xs ys : List Envelope) :
    payloads c (xs ++ ys) = payloads c xs ++ payloads c ys := by simp [payloads]

theorem payloads_singleton (c : Channel) (m : Envelope) :
    payloads c [m] = if m.channel = c then [m.payload] else [] := by
  by_cases h : m.channel = c <;> simp [payloads, h]

theorem payloads_map_mk (c c' : Channel) (ps : List String) :
    payloads c' (ps.map (Envelope.mk c)) = if c = c' then ps else [] := by
  induction ps with
  | nil => simp
  | cons p ps ih =>
    rw [List.map_cons, ← List.singleton_append, payloads_append, payloads_singleton, ih]
    by_cases h : c = c' <;> simp [h]

/-- A message that is published on a channel that somebody consumes waits there behind all
others. -/
theorem waiting_publish_of_consumed (q : Queue) (m : Envelope) {c : Channel}
    (hc : c ≠ .notifications) : (q.publish m).waiting c = q.waiting c ++ payloads c [m] := by
  rw [waiting_publish, payloads_singleton]
  simp [hc]

theorem take_some {q q' : Queue} {c : Channel} {p : String} (h : q.take c = (some p, q')) :
    (∀ c', q.waiting c' = payloads c' [⟨c, p⟩] ++ q'.waiting c') ∧
      q'.published = q.published ∧ q'.rejected = q.rejected := by
  unfold take at h
  split at h
  case h_2 => cases h
  case h_1 m hm =>
    obtain ⟨hp, rfl⟩ := Prod.mk.inj h
    obtain ⟨hc, before, rest, hq, hbefore⟩ := List.find?_eq_some_iff_append.1 hm
    have hmc : m = ⟨c, p⟩ := by
      rw [← of_decide_eq_true hc, ← Option.some.inj hp]
    have hbefore : ∀ e ∈ before, e.channel ≠ c := by simpa using hbefore
    have hleft : q.pending.erase m = before ++ rest := by
      have hm' : m ∉ before := fun hmem ↦ hbefore m hmem (of_decide_eq_true hc)
      rw [hq, List.erase_append_right _ hm', List.erase_cons_head]
    refine ⟨fun c' ↦ ?_, rfl, rfl⟩
    simp only [waiting]
    rw [hleft, hq, ← List.singleton_append, payloads_append, payloads_append, payloads_append, hmc]
    by_cases hcc : c = c'
    · -- Nothing of this channel stands before the message.
      have : payloads c' before = [] := by
        simp only [payloads, List.map_eq_nil_iff, List.filter_eq_nil_iff, decide_eq_true_eq]
        exact fun e he ↦ hcc ▸ hbefore e he
      rw [this, List.nil_append, List.nil_append]
    · simp [payloads_singleton, hcc]

theorem waiting_drain (q : Queue) (c c' : Channel) :
    q.waiting c' = payloads c' ((q.waiting c).map (Envelope.mk c)) ++ (q.drain c).2.waiting c' := by
  rw [payloads_map_mk]
  unfold drain waiting payloads
  by_cases h : c = c'
  · simp [h, List.filter_filter]
  · rw [if_neg h, List.filter_filter, List.nil_append]
    congr 2
    funext m
    by_cases hm : m.channel = c' <;> simp [hm, Ne.symm h]

theorem drainAs_of_not_isOk {q : Queue} {decode : Json.Decoder α} {c : Channel}
    (h : ¬Except.isOk (q.drainAs decode c).1 = true) :
    (q.drainAs decode c).1 = .error .undecodable := by
  have hmapM : ∀ ps : List String, Except.isOk (ps.mapM (decodePayload decode)) ≠ true →
      ps.mapM (decodePayload decode) = .error .undecodable := by
    intro ps hps
    induction ps with
    | nil => exact absurd rfl hps
    | cons p ps ih =>
      rw [List.mapM_cons] at hps ⊢
      cases hp : decodePayload decode p with
      | error e =>
        unfold decodePayload at hp
        split at hp
        · cases hp
        · cases hp
          rfl
      | ok a =>
        cases hrest : ps.mapM (decodePayload decode) with
        | error e =>
          obtain rfl := Except.error.inj (hrest.symm.trans (ih (by rw [hrest]; exact nofun)))
          rfl
        | ok as => exact absurd (by rw [hp, hrest]; rfl) hps
  exact hmapM _ h

theorem waiting_settle (q : Queue) (m : Envelope) (d : Disposition) (c : Channel) :
    (q.settle m d).waiting c = q.waiting c ++ payloads c (if d = .retry then [m] else []) := by
  rcases d with _ | _ | _
  · simp [settle]
  · simpa [settle, payloads_singleton] using waiting_push q m c
  · simp [settle, waiting]

theorem rejected_settle (q : Queue) (m : Envelope) (d : Disposition) :
    (q.settle m d).rejected = q.rejected ++ if d = .reject then [m] else [] := by
  rcases d with _ | _ | _ <;> simp [settle, push]

@[simp] theorem published_settle (q : Queue) (m : Envelope) (d : Disposition) :
    (q.settle m d).published = q.published := by
  rcases d with _ | _ | _ <;> rfl

@[simp] theorem published_publish (q : Queue) (m : Envelope) :
    (q.publish m).published = q.published ++ [m] := by
  unfold publish push
  split <;> rfl

@[simp] theorem rejected_publish (q : Queue) (m : Envelope) :
    (q.publish m).rejected = q.rejected := by
  unfold publish push
  split <;> rfl

end Queue

open Queue (payloads)

/-! ## Uses of the queue and their ledger -/

/-- A message in the hands of a subscriber, which settles it under its number. -/
structure Handout where
  number : Nat
  subscriber : Nat
  message : Envelope
deriving DecidableEq, Repr

/-- One use of the queue: a message is published, handed to a subscriber, taken for good, or settled
by the subscriber that has it. Who takes all messages of a channel says which documents are
understood. -/
inductive Use where
  | publish (message : Envelope)
  | deliver (subscriber : Nat) (channel : Channel)
  | take (channel : Channel)
  | drain (channel : Channel) (decode : Json.Decoder Json)
  | settle (number : Nat) (disposition : Disposition)

def Use.published? : Use → Option Envelope
  | .publish m => some m
  | _ => none

/-- The queue with what it does not keep itself: which messages were put on it by publishing or by a
retry, which it handed out to subscribers and takers, how many deliveries there were, and what
became of the messages that were handed out. -/
structure Ledger where
  queue : Queue := {}
  queued : List Envelope := []
  handedOut : List Envelope := []
  deliveries : Nat := 0
  unsettled : List Handout := []
  taken : List Envelope := []
  acknowledged : List Envelope := []
  /-- What was taken by somebody who was not given it, because not all of it was understood. -/
  lost : List Envelope := []
deriving DecidableEq, Repr

namespace Ledger

/-- The ledger after one more use. A subscriber or taker that finds nothing waits, or goes away. -/
def after? (t : Ledger) : Use → Option Ledger
  | .publish m => some { t with queue := t.queue.publish m, queued := t.queued ++ [m] }
  | .deliver subscriber channel =>
    match t.queue.take channel with
    | (none, _) => some t
    | (some payload, queue) => some { t with
        queue
        handedOut := t.handedOut ++ [⟨channel, payload⟩]
        deliveries := t.deliveries + 1
        unsettled := t.unsettled ++ [⟨t.deliveries, subscriber, ⟨channel, payload⟩⟩] }
  | .take channel =>
    match t.queue.take channel with
    | (none, _) => some t
    | (some payload, queue) => some { t with
        queue
        handedOut := t.handedOut ++ [⟨channel, payload⟩]
        taken := t.taken ++ [⟨channel, payload⟩] }
  | .drain channel decode =>
    let messages := (t.queue.waiting channel).map (Envelope.mk channel)
    let drained := t.queue.drainAs decode channel
    some { t with
      queue := drained.2
      handedOut := t.handedOut ++ messages
      taken := t.taken ++ if Except.isOk drained.1 then messages else []
      lost := t.lost ++ if Except.isOk drained.1 then [] else messages }
  | .settle number disposition =>
    (t.unsettled.find? fun h => h.number = number).map fun h => { t with
      queue := t.queue.settle h.message disposition
      queued := t.queued ++ if disposition = .retry then [h.message] else []
      unsettled := t.unsettled.erase h
      acknowledged := t.acknowledged ++ if disposition = .ack then [h.message] else [] }

/-- The ledger of a sequence of uses, from an empty queue on. -/
def of? (uses : List Use) : Option Ledger := uses.foldlM after? {}

/-- Where the messages of a channel are, each as often as it is there. -/
def whereabouts (t : Ledger) (c : Channel) : Multiset String :=
  t.queue.waiting c + payloads c (t.unsettled.map (·.message)) + payloads c t.taken +
    payloads c t.acknowledged + payloads c t.queue.rejected + payloads c t.lost

/-! ## The books -/

variable {t t' : Ledger} {published : List Envelope} {u : Use} {uses : List Use}

/-- The books balance: the messages that have been published are accounted for on each channel that
somebody consumes, and leave it in the order in which they were put there. Announcements are in the
log and nowhere else. -/
structure Balanced (published : List Envelope) (t : Ledger) : Prop where
  logged : t.queue.published = published
  quiet : t.queue.waiting .notifications = []
  accounted : ∀ c, c ≠ .notifications →
    (payloads c published : Multiset String) = t.whereabouts c
  inOrder : ∀ c, c ≠ .notifications →
    payloads c t.queued = payloads c t.handedOut ++ t.queue.waiting c
  consumed : ∀ h ∈ t.unsettled, h.message.channel ≠ .notifications

namespace Balanced

theorem initial : Balanced [] {} where
  logged := rfl
  quiet := rfl
  accounted _ _ := rfl
  inOrder _ _ := rfl
  consumed _ h := absurd h List.not_mem_nil

theorem publish (h : Balanced published t) (m : Envelope) :
    Balanced (published ++ [m])
      { t with queue := t.queue.publish m, queued := t.queued ++ [m] } where
  logged := by rw [Queue.published_publish, h.logged]
  quiet := by simp [Queue.waiting_publish, h.quiet]
  accounted := by
    intro c hc
    have hbefore := h.accounted c hc
    simp only [whereabouts, Queue.payloads_append, Queue.waiting_publish_of_consumed _ _ hc,
      Queue.rejected_publish, ← Multiset.coe_add] at hbefore ⊢
    rw [hbefore]
    abel
  inOrder := by
    intro c hc
    simp only [Queue.payloads_append, h.inOrder c hc, Queue.waiting_publish_of_consumed _ _ hc,
      List.append_assoc]
  consumed := h.consumed

/-- Messages that leave the front of a channel are in the hands of whoever gets them: of subscribers
that may settle them, or of takers. -/
theorem handOut (h : Balanced published t) {q : Queue} {messages : List Envelope}
    (handouts : List Handout) (taken lost : List Envelope) (number : Nat)
    (hq : ∀ c, t.queue.waiting c = payloads c messages ++ q.waiting c)
    (hpublished : q.published = t.queue.published) (hrejected : q.rejected = t.queue.rejected)
    (hmessages : messages = handouts.map (·.message) ++ taken ++ lost) :
    Balanced published { t with
      queue := q
      handedOut := t.handedOut ++ messages
      deliveries := number
      unsettled := t.unsettled ++ handouts
      taken := t.taken ++ taken
      lost := t.lost ++ lost } where
  logged := hpublished.trans h.logged
  quiet := (List.append_eq_nil_iff.1 ((hq _).symm.trans h.quiet)).2
  accounted := by
    intro c hc
    have hbefore := h.accounted c hc
    simp only [whereabouts, hq c, hmessages, hrejected, List.map_append, Queue.payloads_append,
      ← Multiset.coe_add] at hbefore ⊢
    rw [hbefore]
    abel
  inOrder := by
    intro c hc
    rw [h.inOrder c hc, hq c, Queue.payloads_append, List.append_assoc]
  consumed := by
    intro x hx
    rcases List.mem_append.1 hx with hx | hx
    · exact h.consumed x hx
    · -- On the channel of announcements nothing has waited that could have been handed out.
      intro hc
      have hnone : payloads .notifications messages = [] :=
        (List.append_eq_nil_iff.1 ((hq _).symm.trans h.quiet)).1
      have hmem : x.message ∈ messages :=
        hmessages ▸ List.mem_append_left _ (List.mem_append_left _ (List.mem_map_of_mem hx))
      simp only [payloads, List.map_eq_nil_iff, List.filter_eq_nil_iff, decide_eq_true_eq] at hnone
      exact hnone _ hmem hc

theorem settle (h : Balanced published t) {x : Handout} (hx : x ∈ t.unsettled) (d : Disposition) :
    Balanced published { t with
      queue := t.queue.settle x.message d
      queued := t.queued ++ if d = .retry then [x.message] else []
      unsettled := t.unsettled.erase x
      acknowledged := t.acknowledged ++ if d = .ack then [x.message] else [] } where
  logged := (Queue.published_settle ..).trans h.logged
  quiet := by
    have hc := h.consumed x hx
    rw [Queue.waiting_settle, h.quiet]
    split <;> simp [Queue.payloads_singleton, hc]
  accounted := by
    intro c hc
    have hbefore := h.accounted c hc
    have hhands : (payloads c (t.unsettled.map (·.message)) : Multiset String) =
        payloads c [x.message] + payloads c ((t.unsettled.erase x).map (·.message)) := by
      rw [Multiset.coe_add, Multiset.coe_eq_coe, ← Queue.payloads_append]
      exact (((List.perm_cons_erase hx).map _).filter _).map _
    have hsettled : (payloads c [x.message] : Multiset String) =
        payloads c (if d = .retry then [x.message] else []) +
          payloads c (if d = .ack then [x.message] else []) +
          payloads c (if d = .reject then [x.message] else []) := by
      rcases d with _ | _ | _ <;> simp
    simp only [whereabouts, Queue.waiting_settle, Queue.rejected_settle, Queue.payloads_append,
      ← Multiset.coe_add] at hbefore ⊢
    rw [hbefore, hhands, hsettled]
    abel
  inOrder := by
    intro c hc
    rw [Queue.payloads_append, h.inOrder c hc, Queue.waiting_settle, List.append_assoc]
  consumed y hy := h.consumed y (List.mem_of_mem_erase hy)

/-- **The books balance after every use of the queue**, of whatever kind. -/
theorem after (h : Balanced published t) (hu : t.after? u = some t') :
    Balanced (published ++ u.published?.toList) t' := by
  rcases u with m | ⟨subscriber, c⟩ | c | ⟨c, decode⟩ | ⟨number, d⟩
  case publish =>
    obtain rfl := Option.some.inj hu
    exact h.publish m
  case deliver =>
    simp only [Use.published?, Option.toList_none, List.append_nil]
    simp only [after?] at hu
    split at hu
    · exact Option.some.inj hu ▸ h
    · next p q htake =>
      obtain ⟨hq, hpublished, hrejected⟩ := Queue.take_some htake
      obtain rfl := Option.some.inj hu
      simpa using h.handOut [⟨t.deliveries, subscriber, ⟨c, p⟩⟩] [] [] (t.deliveries + 1)
        hq hpublished hrejected rfl
  case take =>
    simp only [Use.published?, Option.toList_none, List.append_nil]
    simp only [after?] at hu
    split at hu
    · exact Option.some.inj hu ▸ h
    · next p q htake =>
      obtain ⟨hq, hpublished, hrejected⟩ := Queue.take_some htake
      obtain rfl := Option.some.inj hu
      simpa using h.handOut [] [⟨c, p⟩] [] t.deliveries hq hpublished hrejected rfl
  case drain =>
    simp only [Use.published?, Option.toList_none, List.append_nil]
    obtain rfl := Option.some.inj hu
    by_cases hgiven : Except.isOk (t.queue.drainAs decode c).1 = true
    · have := h.handOut [] ((t.queue.waiting c).map (Envelope.mk c)) [] t.deliveries
        (t.queue.waiting_drain c) rfl rfl (by simp)
      rw [if_pos hgiven, if_pos hgiven]
      rwa [List.append_nil t.unsettled] at this
    · have := h.handOut [] [] ((t.queue.waiting c).map (Envelope.mk c)) t.deliveries
        (t.queue.waiting_drain c) rfl rfl (by simp)
      rw [if_neg hgiven, if_neg hgiven]
      rwa [List.append_nil t.unsettled] at this
  case settle =>
    simp only [Use.published?, Option.toList_none, List.append_nil]
    obtain ⟨x, hx, rfl⟩ := Option.map_eq_some_iff.1 hu
    exact h.settle (List.mem_of_find?_eq_some hx) d

theorem run : ∀ {uses : List Use} {published : List Envelope} {t : Ledger},
    Balanced published t → uses.foldlM after? t = some t' →
      Balanced (published ++ uses.filterMap Use.published?) t'
  | [], _, _, h, hrun => by
    obtain rfl := Option.some.inj hrun
    simpa using h
  | u :: uses, published, t, h, hrun => by
    rw [List.foldlM_cons] at hrun
    obtain ⟨t₁, hu, hrest⟩ := Option.bind_eq_some_iff.1 hrun
    have := run (h.after hu) hrest
    rcases hp : u.published? with _ | m <;> simpa [hp] using this

end Balanced

/-- What a use adds to what is lost: nothing, or what a drain has taken off a channel on which not
all messages are understood. -/
theorem lost_of_after (hu : t.after? u = some t') {m : Envelope} (hm : m ∈ t'.lost) :
    m ∈ t.lost ∨ ∃ decode, u = .drain m.channel decode ∧ m.payload ∈ t.queue.waiting m.channel ∧
      (t.queue.drainAs decode m.channel).1 = .error .undecodable := by
  rcases u with e | ⟨subscriber, c⟩ | c | ⟨c, decode⟩ | ⟨number, d⟩
  case publish =>
    obtain rfl := Option.some.inj hu
    exact .inl hm
  case deliver | take =>
    simp only [after?] at hu
    split at hu
    · exact .inl (Option.some.inj hu ▸ hm)
    · obtain rfl := Option.some.inj hu
      exact .inl hm
  case drain =>
    obtain rfl := Option.some.inj hu
    rcases List.mem_append.1 hm with hm | hm
    · exact .inl hm
    · split at hm
      · cases hm
      · next hfailed =>
        obtain ⟨p, hp, rfl⟩ := List.mem_map.1 hm
        exact .inr ⟨decode, rfl, hp, Queue.drainAs_of_not_isOk hfailed⟩
  case settle =>
    obtain ⟨x, -, rfl⟩ := Option.map_eq_some_iff.1 hu
    exact .inl hm

/-- A message that is lost waited on its channel when somebody drained it who did not understand all
that waited there. -/
theorem lost_of_foldlM : ∀ {uses : List Use} {t : Ledger}, uses.foldlM after? t = some t' →
    ∀ m ∈ t'.lost, m ∈ t.lost ∨ ∃ before decode after t₁, uses =
      before ++ .drain m.channel decode :: after ∧ before.foldlM after? t = some t₁ ∧
        m.payload ∈ t₁.queue.waiting m.channel ∧ (t₁.queue.drainAs decode m.channel).1 =
        .error .undecodable
  | [], _, hrun, m, hm => by
    obtain rfl := Option.some.inj hrun
    exact .inl hm
  | u :: uses, t, hrun, m, hm => by
    rw [List.foldlM_cons] at hrun
    obtain ⟨t₁, hu, hrest⟩ := Option.bind_eq_some_iff.1 hrun
    rcases lost_of_foldlM hrest m hm with hm | ⟨before, decode, after, t₂, rfl, hbefore, hlost⟩
    · rcases lost_of_after hu hm with hm | ⟨decode, rfl, hlost⟩
      · exact .inl hm
      · exact .inr ⟨[], decode, uses, t, rfl, rfl, hlost⟩
    · refine .inr ⟨u :: before, decode, after, t₂, rfl, ?_, hlost⟩
      rw [List.foldlM_cons, hu]
      exact hbefore

/-- **The queue neither loses nor duplicates a message, but for those of a drain that fails.** After
any sequence of uses, the messages that were published on a channel that is consumed are those that
wait there, that are with a subscriber, that were taken, that are done with, that were set aside and
that were lost, taken together and each as often; and what is lost waited when somebody drained the
channel who did not understand all that waited there. The channel hands out its messages in the
order in which they were put on it last. On the channel of announcements nothing ever waits, and the
log has everything that was published, in order. -/
theorem messages_accounted_for (uses : List Use) (t : Ledger) (h : of? uses = some t) :
    (∀ c, c ≠ .notifications →
      (payloads c (uses.filterMap Use.published?) : Multiset String) =
          t.queue.waiting c + payloads c (t.unsettled.map (·.message)) + payloads c t.taken +
            payloads c t.acknowledged + payloads c t.queue.rejected + payloads c t.lost ∧
        payloads c t.queued = payloads c t.handedOut ++ t.queue.waiting c) ∧
      (∀ m ∈ t.lost, ∃ before decode after t₁, uses = before ++ .drain m.channel decode :: after ∧
        of? before = some t₁ ∧ m.payload ∈ t₁.queue.waiting m.channel ∧
          (t₁.queue.drainAs decode m.channel).1 = .error .undecodable) ∧
      t.queue.waiting .notifications = [] ∧
      t.queue.published = uses.filterMap Use.published? := by
  have hbooks : Balanced (uses.filterMap Use.published?) t := by
    simpa using Balanced.initial.run h
  refine ⟨fun c hc ↦ ⟨hbooks.accounted c hc, hbooks.inOrder c hc⟩, fun m hm ↦ ?_,
    hbooks.quiet, hbooks.logged⟩
  exact (lost_of_foldlM h m hm).resolve_left List.not_mem_nil

/-- Two subscribers and a taker: a result is retried and handed out again behind the other one. -/
theorem messages_accounted_for_after_a_retry : ∃ t,
    of? [.publish ⟨.results, "1"⟩, .publish ⟨.notifications, "n"⟩, .publish ⟨.results, "2"⟩,
        .deliver 0 .results, .deliver 1 .results, .settle 0 .retry, .settle 1 .reject,
        .deliver 1 .results, .publish ⟨.work, "1"⟩, .take .work] = some t ∧
      t.queue.rejected = [⟨.results, "2"⟩] ∧ t.unsettled = [⟨2, 1, ⟨.results, "1"⟩⟩] ∧
      (↑["1", "2"] : Multiset String) = ↑([] : List String) + ↑["1"] + ↑([] : List String) +
        ↑([] : List String) + ↑["2"] + ↑([] : List String) ∧
      payloads .results t.queued = ["1", "2", "1"] := by
  have h : of? [.publish ⟨.results, "1"⟩, .publish ⟨.notifications, "n"⟩, .publish ⟨.results, "2"⟩,
      .deliver 0 .results, .deliver 1 .results, .settle 0 .retry, .settle 1 .reject,
      .deliver 1 .results, .publish ⟨.work, "1"⟩, .take .work] = some {
        queue := {
          published := [⟨.results, "1"⟩, ⟨.notifications, "n"⟩, ⟨.results, "2"⟩, ⟨.work, "1"⟩]
          rejected := [⟨.results, "2"⟩] }
        queued := [⟨.results, "1"⟩, ⟨.notifications, "n"⟩, ⟨.results, "2"⟩, ⟨.results, "1"⟩,
          ⟨.work, "1"⟩]
        handedOut := [⟨.results, "1"⟩, ⟨.results, "2"⟩, ⟨.results, "1"⟩, ⟨.work, "1"⟩]
        deliveries := 3
        unsettled := [⟨2, 1, ⟨.results, "1"⟩⟩]
        taken := [⟨.work, "1"⟩] } := by decide
  obtain ⟨hresults, hqueued⟩ := (messages_accounted_for _ _ h).1 .results (by decide)
  exact ⟨_, h, rfl, rfl, hresults, hqueued⟩

/-- Two messages of which one is no document are gone when the channel has been drained. -/
theorem not_kept_by_drain : ∃ t,
    of? [.publish ⟨.results, "1"⟩, .publish ⟨.results, "\x7b"⟩, .drain .results some] = some t ∧
      (↑(payloads .results t.queue.published) : Multiset String) ≠
        t.queue.waiting .results + payloads .results (t.unsettled.map (·.message)) +
          payloads .results t.taken + payloads .results t.acknowledged +
            payloads .results t.queue.rejected := by
  refine ⟨_, rfl, ?_⟩
  decide +kernel

end Ledger

end Orchestration
