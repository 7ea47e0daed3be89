/-
  Message conservation.

  A message has a place: live, archived in the dead-letter table, acknowledged, expired or
  purged.  `Place.Holds` reads the place off the tables and the events of a run.  An operation
  can make one kind of move (`Operation.move`), so each event either leaves a message where it
  is or moves it once (`Run.holds_cases`, `Run.holds_step`), and along a run a message walks
  through the places in one direction only.
-/
import Retsu.History
import Retsu.Reports

namespace Retsu

open Relational

/-! ## Places and moves -/

inductive Place
  | live
  | deadLettered
  | acknowledged
  | expired
  | purged
deriving DecidableEq, Repr

/-- The place an operation can take messages from, and the one it puts them. -/
def Operation.move : Operation → Option (Place × Place)
  | dequeueMessage _ _ => some (.live, .deadLettered)
  | acknowledgeMessage _ _ _ => some (.live, .acknowledged)
  | processExpiredMessages _ => some (.live, .expired)
  | purgeDeadLetterMessages _ _ => some (.deadLettered, .purged)
  | createQueue _ | updateQueue _ _ | enqueueMessage _ _ _ => none

/-- The places a message can still be in later. -/
inductive Place.LeadsTo : Place → Place → Prop
  | stay (p : Place) : LeadsTo p p
  | move {p q r : Place} {op : Operation} (h : LeadsTo p q) (hmove : op.move = some (q, r)) :
      LeadsTo p r

/-- No place is ever returned to: the moves have no cycle. -/
theorem Place.LeadsTo.antisymm {p q : Place} (h : p.LeadsTo q) (h' : q.LeadsTo p) : p = q := by
  have hrank : ∀ {p q : Place}, p.LeadsTo q → p = q ∨
      (p = .live ∧ q ≠ .live) ∨ (p = .deadLettered ∧ q = .purged) := by
    intro p q h
    induction h with
    | stay => exact Or.inl rfl
    | @move q r op h hmove ih =>
      cases op <;> simp only [Operation.move, Option.some.injEq, Prod.mk.injEq, reduceCtorEq] at hmove
      all_goals obtain ⟨rfl, rfl⟩ := hmove
      all_goals rcases ih with rfl | ⟨rfl, hne⟩ | ⟨rfl, hq⟩ <;> simp_all
  rcases hrank h with rfl | ⟨rfl, hq⟩ | ⟨rfl, rfl⟩
  · rfl
  · rcases hrank h' with rfl | ⟨rfl, -⟩ | ⟨rfl, h⟩ <;> simp_all
  · rcases hrank h' with h | ⟨h, -⟩ | ⟨h, -⟩ <;> simp at h

/-! ## Where a message is -/

def Database.Live (db : Database) (id : Uuid) : Prop := ∃ m ∈ db.queueMessage, m.id = id

def Database.Archived (db : Database) (id : Uuid) : Prop :=
  ∃ d ∈ db.queueDeadLetterMessage, d.id = id

/-- The caller was told that the message is acknowledged. -/
def Event.Acknowledges (e : Event) (id : Uuid) : Prop :=
  (∃ queueId receiptHandle, e.op = .acknowledgeMessage queueId id receiptHandle) ∧
    e.response = .acknowledgeMessage .acknowledged

/-- An expired cleanup removed the message. -/
def Event.Expires (e : Event) (id : Uuid) : Prop :=
  (∃ batchSize, e.op = .processExpiredMessages batchSize) ∧ e.before.Live id ∧ ¬e.after.Live id

/-- A purge removed the archived message. -/
def Event.Purges (e : Event) (id : Uuid) : Prop :=
  (∃ retentionSeconds batchSize, e.op = .purgeDeadLetterMessages retentionSeconds batchSize) ∧
    e.before.Archived id ∧ ¬e.after.Archived id

/-- After the events, in the database they left, the message is in this place. -/
def Place.Holds (events : List Event) (db : Database) : Place → Uuid → Prop
  | live, id => db.Live id
  | deadLettered, id => db.Archived id
  | acknowledged, id => ∃ e ∈ events, e.Acknowledges id
  | expired, id => ∃ e ∈ events, e.Expires id
  | purged, id => ∃ e ∈ events, e.Purges id

/-- The message was enqueued, and the caller told so. -/
def Enqueued (events : List Event) (id : Uuid) : Prop :=
  ∃ e ∈ events, e.op.enqueuedId = some id ∧ e.response = .enqueueMessage

/-- A successful acknowledge takes the message out of the table. -/
theorem Effect.acknowledges {queues : List QueueRow} {db db' : Database} {now : Int}
    {queueId messageId receiptHandle : Uuid}
    (heffect : Effect queues db now (.acknowledgeMessage queueId messageId receiptHandle)
      (.acknowledgeMessage .acknowledged) db') : db.Live messageId ∧ ¬db'.Live messageId := by
  cases heffect with
  | acknowledged hm hack =>
    simp only [isAcknowledgeable, decide_eq_true_eq] at hack
    refine ⟨⟨_, hm, hack.1⟩, ?_⟩
    rintro ⟨m', hm', hid⟩
    simpa [hid] using (List.mem_filter.mp hm').2

/-- A successful enqueue puts the message into the table. -/
theorem Effect.enqueues {queues : List QueueRow} {db db' : Database} {now : Int} {queueId : Uuid}
    {message : Message} {ttl : UInt32}
    (heffect : Effect queues db now (.enqueueMessage queueId message ttl) .enqueueMessage db') :
    db'.Live message.id := by
  cases heffect with
  | enqueued => exact ⟨_, List.mem_append_right _ (List.mem_singleton.mpr rfl), rfl⟩

variable {order : TriggerOrder} {events : List Event} {db : Database}

section Step

variable (run : Run order events db) (c : Call)

/-- What an event is, as its effect. -/
theorem Run.next_effect (run : Run order events db) (c : Call) :
    Effect db.queue db c.now c.op (c.event order db).response (c.event order db).after :=
  (c.op.run_effect run.valid order c.now).1

/-- **A message in a place after an event** was there before, was moved there by the event, or
    has just been enqueued. -/
theorem Run.holds_cases (run : Run order events db) (c : Call) {place : Place} {id : Uuid}
    (hplace : place.Holds (events ++ [c.event order db]) (c.event order db).after id) :
    place.Holds events db id ∨
      (∃ source, c.op.move = some (source, place) ∧ source.Holds events db id ∧
        ¬source.Holds (events ++ [c.event order db]) (c.event order db).after id) ∨
      (place = .live ∧ c.op.enqueuedId = some id ∧
        (c.event order db).response = .enqueueMessage) := by
  have heffect := run.next_effect c
  cases place with
  | live =>
    obtain ⟨m', hm', rfl⟩ := hplace
    cases Call.origin run.valid order c hm' with
    | kept hm => exact Or.inl ⟨m', hm, rfl⟩
    | enqueued hid henqueues =>
      obtain ⟨queueId, message, ttl, hop, hresponse, rfl⟩ := henqueues
      have hop' : c.op = .enqueueMessage queueId message ttl := hop
      exact Or.inr (Or.inr ⟨rfl, by rw [hop']; rfl, hresponse⟩)
    | leased hqueue hop hdelivered hm hcandidate hlease =>
      exact Or.inl ⟨_, hm, by rw [hlease]; rfl⟩
  | deadLettered =>
    obtain ⟨d, hd, rfl⟩ := hplace
    have horigin := heffect.deadLetter_origin hd
    generalize (c.event order db).response = response at horigin
    obtain ⟨now, op⟩ := c
    cases horigin with
    | kept hd => exact Or.inl ⟨d, hd, rfl⟩
    | deadLettered hqueue hm hexhausted hd hgone =>
      obtain ⟨delivered, -, rfl⟩ := deadLetter_eq_ok.mp hd
      exact Or.inr (Or.inl ⟨.live, rfl, ⟨_, hm, rfl⟩, fun ⟨m', hm', hid⟩ => hgone m' hm' hid⟩)
  | acknowledged =>
    obtain ⟨e, he, hack⟩ := hplace
    rcases List.mem_append.mp he with he | he
    · exact Or.inl ⟨e, he, hack⟩
    · rw [List.mem_singleton.mp he] at hack
      obtain ⟨⟨queueId, receiptHandle, hop⟩, hresponse⟩ := hack
      have hop' : c.op = .acknowledgeMessage queueId id receiptHandle := hop
      rw [hresponse, hop'] at heffect
      exact Or.inr (Or.inl ⟨.live, by rw [hop']; rfl, heffect.acknowledges⟩)
  | expired =>
    obtain ⟨e, he, hexp⟩ := hplace
    rcases List.mem_append.mp he with he | he
    · exact Or.inl ⟨e, he, hexp⟩
    · rw [List.mem_singleton.mp he] at hexp
      obtain ⟨⟨batchSize, hop⟩, hlive⟩ := hexp
      have hop' : c.op = .processExpiredMessages batchSize := hop
      exact Or.inr (Or.inl ⟨.live, by rw [hop']; rfl, hlive⟩)
  | purged =>
    obtain ⟨e, he, hpurge⟩ := hplace
    rcases List.mem_append.mp he with he | he
    · exact Or.inl ⟨e, he, hpurge⟩
    · rw [List.mem_singleton.mp he] at hpurge
      obtain ⟨⟨retentionSeconds, batchSize, hop⟩, harchived⟩ := hpurge
      have hop' : c.op = .purgeDeadLetterMessages retentionSeconds batchSize := hop
      exact Or.inr (Or.inl ⟨.deadLettered, by rw [hop']; rfl, harchived⟩)

/-- **A message in a place before an event** stays there or is moved once. -/
theorem Run.holds_step (run : Run order events db) (c : Call) {place : Place} {id : Uuid}
    (hplace : place.Holds events db id) :
    ∃ target, target.Holds (events ++ [c.event order db]) (c.event order db).after id ∧
      (target = place ∨ c.op.move = some (place, target)) := by
  have heffect := run.next_effect c
  have hlast : c.event order db ∈ events ++ [c.event order db] :=
    List.mem_append_right _ (List.mem_singleton.mpr rfl)
  cases place with
  | live =>
    by_cases hlive : (c.event order db).after.Live id
    · exact ⟨.live, hlive, Or.inl rfl⟩
    obtain ⟨m, hm, rfl⟩ := hplace
    have hexit := heffect.exit run.valid hm fun m' hm' hid => hlive ⟨m', hm', hid⟩
    generalize hresponse : (c.event order db).response = response at hexit
    generalize hop : c.op = op at hexit ⊢
    cases hexit with
    | acknowledged hack =>
      simp only [isAcknowledgeable, decide_eq_true_eq] at hack
      exact ⟨.acknowledged, ⟨_, hlast, ⟨_, _, hack.1 ▸ hop⟩, hresponse⟩, Or.inr rfl⟩
    | deadLettered hqueue hexhausted hd hstored =>
      refine ⟨.deadLettered, ⟨_, hstored, ?_⟩, Or.inr rfl⟩
      obtain ⟨delivered, -, rfl⟩ := deadLetter_eq_ok.mp hd
      rfl
    | expired hexpired =>
      exact ⟨.expired, ⟨_, hlast, ⟨_, hop⟩, ⟨m, hm, rfl⟩, hlive⟩, Or.inr rfl⟩
  | deadLettered =>
    by_cases harchived : (c.event order db).after.Archived id
    · exact ⟨.deadLettered, harchived, Or.inl rfl⟩
    obtain ⟨d, hd, rfl⟩ := hplace
    obtain ⟨retentionSeconds, batchSize, summary, hop, -, -⟩ :=
      heffect.deadLetter_exit run.valid hd fun hd' => harchived ⟨d, hd', rfl⟩
    exact ⟨.purged, ⟨_, hlast, ⟨_, _, hop⟩, ⟨d, hd, rfl⟩, harchived⟩, Or.inr (by rw [hop]; rfl)⟩
  | acknowledged =>
    obtain ⟨e, he, hack⟩ := hplace
    exact ⟨.acknowledged, ⟨e, List.mem_append_left _ he, hack⟩, Or.inl rfl⟩
  | expired =>
    obtain ⟨e, he, hexp⟩ := hplace
    exact ⟨.expired, ⟨e, List.mem_append_left _ he, hexp⟩, Or.inl rfl⟩
  | purged =>
    obtain ⟨e, he, hpurge⟩ := hplace
    exact ⟨.purged, ⟨e, List.mem_append_left _ he, hpurge⟩, Or.inl rfl⟩

end Step

/-! ## One place at a time -/

/-- Only what was enqueued has a place. -/
theorem Run.holds_enqueued (run : Run order events db) {place : Place} {id : Uuid}
    (hplace : place.Holds events db id) : Enqueued events id := by
  induction run generalizing place with
  | start =>
    cases place <;> obtain ⟨_, h, -⟩ := hplace <;> simp [Database.empty] at h
  | step run c htime hfresh ih =>
    rcases run.holds_cases c hplace with h | ⟨source, -, h, -⟩ | ⟨-, hop, hresponse⟩
    · obtain ⟨e, he, henqueued⟩ := ih h
      exact ⟨e, List.mem_append_left _ he, henqueued⟩
    · obtain ⟨e, he, henqueued⟩ := ih h
      exact ⟨e, List.mem_append_left _ he, henqueued⟩
    · exact ⟨_, List.mem_append_right _ (List.mem_singleton.mpr rfl), hop, hresponse⟩

/-- No message is in two places. -/
theorem Run.holds_unique (run : Run order events db) {p q : Place} {id : Uuid}
    (hp : p.Holds events db id) (hq : q.Holds events db id) : p = q := by
  induction run generalizing p q with
  | start => cases p <;> obtain ⟨_, h, -⟩ := hp <;> simp [Database.empty] at h
  | @step events db run c htime hfresh ih =>
    -- a fresh id has no place yet
    have hnone : ∀ {place : Place}, c.op.enqueuedId = some id → ¬place.Holds events db id := by
      intro place hop hplace
      obtain ⟨e, he, hid, -⟩ := run.holds_enqueued hplace
      exact hfresh id hop e he hid
    rcases run.holds_cases c hp with h | ⟨s, hmove, hs, hgone⟩ | ⟨rfl, hop, -⟩
    · rcases run.holds_cases c hq with h' | ⟨s', -, hs', hgone'⟩ | ⟨rfl, hop', -⟩
      · exact ih h h'
      · exact absurd (ih h hs' ▸ hp) hgone'
      · exact absurd h (hnone hop')
    · rcases run.holds_cases c hq with h' | ⟨s', hmove', hs', -⟩ | ⟨rfl, hop', -⟩
      · exact absurd (ih h' hs ▸ hq) hgone
      · rw [hmove, ih hs hs'] at hmove'
        simpa using hmove'
      · exact absurd hs (hnone hop')
    · rcases run.holds_cases c hq with h' | ⟨s', -, hs', -⟩ | ⟨rfl, -, -⟩
      · exact absurd h' (hnone hop)
      · exact absurd hs' (hnone hop)
      · rfl

/-- Every enqueued message is in some place. -/
theorem Run.holds_exists (run : Run order events db) {id : Uuid} (henqueued : Enqueued events id) :
    ∃ place : Place, place.Holds events db id := by
  induction run with
  | start => obtain ⟨e, he, -⟩ := henqueued; simp at he
  | step run c htime hfresh ih =>
    obtain ⟨e, he, hop, hresponse⟩ := henqueued
    rcases List.mem_append.mp he with he | he
    · obtain ⟨place, hplace⟩ := ih ⟨e, he, hop, hresponse⟩
      obtain ⟨target, htarget, -⟩ := run.holds_step c hplace
      exact ⟨target, htarget⟩
    · rw [List.mem_singleton.mp he] at hop hresponse
      have heffect := run.next_effect c
      rw [hresponse] at heffect
      obtain ⟨now, op⟩ := c
      cases op <;> simp only [Call.event, Operation.enqueuedId, Option.some.injEq,
        reduceCtorEq] at hop
      exact ⟨.live, hop ▸ heffect.enqueues⟩

/-- **Messages only move forward.** -/
theorem Run.holds_leadsTo {more : List Event} {db' : Database} (run : Run order events db)
    (run' : Run order (events ++ more) db') {p q : Place} {id : Uuid}
    (hp : p.Holds events db id) (hq : q.Holds (events ++ more) db' id) : p.LeadsTo q := by
  induction more using List.reverseRecOn generalizing db' q with
  | nil =>
    rw [List.append_nil] at run' hq
    rw [run'.unique run] at hq
    exact run.holds_unique hp hq ▸ .stay p
  | append_singleton more last ih =>
    rw [← List.append_assoc] at run' hq
    generalize hes : events ++ more ++ [last] = es at run' hq
    cases run' with
    | start => simp at hes
    | @step events' db'' run'' c htime hfresh =>
      obtain ⟨rfl, -⟩ := List.append_inj' hes rfl
      obtain ⟨e, he, henqueued⟩ := run.holds_enqueued hp
      obtain ⟨r, hr⟩ := run''.holds_exists ⟨e, List.mem_append_left _ he, henqueued⟩
      obtain ⟨target, htarget, hmove⟩ := run''.holds_step c hr
      rw [Run.holds_unique (.step run'' c htime hfresh) hq htarget]
      rcases hmove with rfl | hmove
      · exact ih run'' hr
      · exact .move (ih run'' hr) hmove

/-! ## How messages leave -/

/-- An acknowledge that carried the current receipt handle during an active lease. -/
def Event.AcknowledgesLease (e : Event) (m : QueueMessage) : Prop :=
  ∃ receiptHandle, e.op = .acknowledgeMessage m.queueId m.id receiptHandle ∧
    e.response = .acknowledgeMessage .acknowledged ∧ m.state = .inFlight ∧
    m.receiptHandle = some receiptHandle ∧ e.now < m.availableAfter

/-- A dequeue of the message's queue found it unexpired, its lease elapsed and its attempts
    used up under the current limit, and archived it as it was. -/
def Event.DeadLetters (e : Event) (m : QueueMessage) : Prop :=
  ∃ queue receiptHandle outcome, e.op = .dequeueMessage m.queueId receiptHandle ∧
    e.response = .dequeueMessage outcome ∧ queue ∈ e.before.queue ∧ queue.id = m.queueId ∧
    e.now < m.expiresAt ∧ m.state = .inFlight ∧ m.availableAfter ≤ e.now ∧
    queue.maxDeliveryAttempts ≤ m.deliveryAttempts ∧
    ∃ d ∈ e.after.queueDeadLetterMessage, Checked queueDeadLetterMessageChecks d ∧
      d.id = m.id ∧ d.queueId = m.queueId ∧ d.payload = m.payload ∧ d.priority = m.priority ∧
      d.enqueuedAt = m.enqueuedAt ∧ d.expiresAt = m.expiresAt ∧
      d.deliveryAttempts = m.deliveryAttempts ∧ some d.lastDeliveredAt = m.lastDeliveredAt ∧
      d.deadLetteredAt = e.now

/-- A cleanup found the message expired, and ready or with an elapsed lease. -/
def Event.CleansUp (e : Event) (m : QueueMessage) : Prop :=
  ∃ batchSize summary, e.op = .processExpiredMessages batchSize ∧
    e.response = .processExpiredMessages summary ∧ m.expiresAt ≤ e.now ∧
    (m.state = .ready ∨ m.availableAfter ≤ e.now)

/-- A message that is gone after an event left in one of these ways. -/
theorem Run.exit (run : Run order events db) {e : Event} (he : e ∈ events) {m : QueueMessage}
    (hm : m ∈ e.before.queueMessage) (hgone : ¬e.after.Live m.id) :
    e.AcknowledgesLease m ∨ e.DeadLetters m ∨ e.CleansUp m := by
  obtain ⟨before, after, rfl, hbefore, hupto, hevent, -⟩ := run.cut he
  have heffect := (run.effect he).2
  have hexit := heffect.exit hbefore.valid hm fun m' hm' hid => hgone ⟨m', hm', hid⟩
  generalize hop : e.op = op at hexit
  generalize hresponse : e.response = response at hexit
  cases hexit with
  | acknowledged hack =>
    simp only [isAcknowledgeable, decide_eq_true_eq] at hack
    obtain ⟨rfl, rfl, hhandle, hlease⟩ := hack
    refine Or.inl ⟨_, hop, hresponse, ?_, hhandle, hlease⟩
    rcases (QueueMessage.checked_iff.mp (hbefore.valid.messages.checked m hm)).2.2.2.1 with h | h
    · rw [h.2.1] at hhandle
      simp at hhandle
    · exact h.1
  | @deadLettered queue receiptHandle _ d outcome hqueue hexhausted hd hstored =>
    simp only [isDeadLetterCandidate, decide_eq_true_eq] at hexhausted
    obtain ⟨hid, hflight, helapsed, hexpires, hattempts⟩ := hexhausted
    have hchecked := hupto.valid.deadLetterChecked d hstored
    obtain ⟨delivered, hdelivered, rfl⟩ := deadLetter_eq_ok.mp hd
    exact Or.inr (Or.inl ⟨queue, receiptHandle, outcome, hid ▸ hop, hresponse, hqueue, hid, hexpires,
      hflight, helapsed, hattempts, _, hstored, hchecked, rfl, rfl, rfl, rfl, rfl, rfl, rfl,
      hdelivered.symm, rfl⟩)
  | expired hexpired =>
    simp only [isExpired, decide_eq_true_eq] at hexpired
    exact Or.inr (Or.inr ⟨_, _, hop, hresponse, hexpired.1, hexpired.2.imp id And.right⟩)

/-- What an event of a run reports is what it removed. -/
structure Event.Accounts (e : Event) : Prop where
  /-- A dequeue does not fail, and archives what it removes. -/
  dequeue : ∀ queueId receiptHandle, e.op = .dequeueMessage queueId receiptHandle →
    ∃ outcome, e.response = .dequeueMessage outcome ∧
      outcome.deadLettered = (removedMessages e.before e.after).length ∧
      e.after.queueDeadLetterMessage.length =
        e.before.queueDeadLetterMessage.length + outcome.deadLettered
  /-- A cleanup reports every message it removes, under the name of its queue. -/
  cleanup : ∀ batchSize, e.op = .processExpiredMessages batchSize →
    ∃ summary, e.response = .processExpiredMessages summary ∧
      summary.processed = (removedMessages e.before e.after).length ∧
      ∀ s ∈ summary.perQueue, ∃ q ∈ e.before.queue, s.queueName = q.name ∧
        s.neverDelivered = (removedMessages e.before e.after).countP
          (fun m => m.queueId = q.id ∧ m.deliveryAttempts = 0) ∧
        s.previouslyDelivered = (removedMessages e.before e.after).countP
          (fun m => m.queueId = q.id ∧ 0 < m.deliveryAttempts)
  /-- A purge removes what is old enough, and reports it likewise. -/
  purge : ∀ retentionSeconds batchSize,
    e.op = .purgeDeadLetterMessages retentionSeconds batchSize →
    (∀ d ∈ removedDeadLetters e.before e.after,
      d.deadLetteredAt ≤ e.now - seconds retentionSeconds) ∧
    ∃ summary, e.response = .purgeDeadLetterMessages summary ∧
      summary.purged = (removedDeadLetters e.before e.after).length ∧
      ∀ s ∈ summary.perQueue, ∃ q ∈ e.before.queue, s.queueName = q.name ∧
        s.purged = (removedDeadLetters e.before e.after).countP (fun d => d.queueId = q.id)

theorem Run.accounts (run : Run order events db) {e : Event} (he : e ∈ events) : e.Accounts where
  dequeue queueId receiptHandle hop := by
    obtain ⟨outcome, hresponse⟩ := run.dequeue_succeeds he hop
    obtain ⟨hvalid, heffect⟩ := run.effect he
    rw [hop, hresponse] at heffect
    exact ⟨outcome, hresponse, heffect.dequeue_report hvalid⟩
  cleanup batchSize hop := by
    obtain ⟨summary, hresponse⟩ := run.cleanup_succeeds he hop
    obtain ⟨hvalid, heffect⟩ := run.effect he
    rw [hop, hresponse] at heffect
    exact ⟨summary, hresponse, heffect.expired_report hvalid⟩
  purge retentionSeconds batchSize hop := by
    obtain ⟨summary, hresponse⟩ := run.purge_succeeds he hop
    obtain ⟨hvalid, heffect⟩ := run.effect he
    refine ⟨fun d hd => ?_, ?_⟩
    · obtain ⟨hmem, hgone⟩ := mem_removedRows.mp hd
      obtain ⟨r, b, s, hop', -, hpurge⟩ :=
        heffect.deadLetter_exit hvalid hmem fun hd' => hgone d hd' rfl
      rw [hop] at hop'
      injection hop' with hr
      subst hr
      simpa [isPurgeable] using hpurge
    · rw [hop, hresponse] at heffect
      exact ⟨summary, hresponse, heffect.purge_report hvalid⟩

/-- **Message conservation.**  After any calls in chronological order with fresh message ids,
    exactly the enqueued messages have a place, and each has one; a message never returns to a
    place it has left; it leaves the message table by an acknowledge of its current lease, by
    dead-lettering or by expiry; only a purge takes it out of the dead-letter table; and every
    operation reports what it removed. -/
theorem message_conservation (order : TriggerOrder) (calls : List Call)
    (htime : Chronological calls) (hfresh : FreshIds calls) :
    let events := history order .empty calls
    let db := finalDatabase order .empty calls
    (∀ id, (Enqueued events id ↔ ∃ place : Place, place.Holds events db id) ∧
      ∀ p q : Place, p.Holds events db id → q.Holds events db id → p = q) ∧
    (∀ earlier later, calls = earlier ++ later → ∀ (id : Uuid) (p q : Place),
      p.Holds (history order .empty earlier) (finalDatabase order .empty earlier) id →
      q.Holds events db id → p.LeadsTo q ∧ (q.LeadsTo p → q = p)) ∧
    (∀ e ∈ events, ∀ m ∈ e.before.queueMessage, ¬e.after.Live m.id →
      e.AcknowledgesLease m ∨ e.DeadLetters m ∨ e.CleansUp m) ∧
    (∀ e ∈ events, ∀ id, e.before.Archived id → ¬e.after.Archived id → e.Purges id) ∧
    ∀ e ∈ events, e.Accounts := by
  intro events db
  have run : Run order events db := run_of_calls order htime hfresh
  refine ⟨fun id => ⟨⟨run.holds_exists, fun ⟨p, hp⟩ => run.holds_enqueued hp⟩,
    fun p q => run.holds_unique⟩, ?_, fun e he m => run.exit he, ?_, fun e he => run.accounts he⟩
  · rintro earlier later rfl id p q hp hq
    rw [Chronological, List.map_append, List.pairwise_append] at htime
    rw [FreshIds, List.filterMap_append, List.nodup_append] at hfresh
    have hsplit : events = history order .empty earlier ++
        history order (finalDatabase order .empty earlier) later := history_append ..
    have hleads := (run_of_calls order htime.1 hfresh.1).holds_leadsTo (hsplit ▸ run) hp
      (hsplit ▸ hq)
    exact ⟨hleads, fun hback => hback.antisymm hleads⟩
  · rintro e he id ⟨d, hd, rfl⟩ hgone
    obtain ⟨hvalid, heffect⟩ := run.effect he
    obtain ⟨r, b, s, hop, -, -⟩ :=
      heffect.deadLetter_exit hvalid hd fun hd' => hgone ⟨d, hd', rfl⟩
    exact ⟨⟨r, b, hop⟩, ⟨d, hd, rfl⟩, hgone⟩

/-- A message that is delivered once, dead-lettered and purged. -/
def purgedOrder : List Call := [
  ⟨0, .createQueue (ordersQueue 1 oneAttempt_inRange)⟩,
  ⟨0, .enqueueMessage 1 (orderMessage 7) 60⟩,
  ⟨0, .dequeueMessage 1 21⟩,
  ⟨seconds 1, .dequeueMessage 1 22⟩,
  ⟨seconds 2, .purgeDeadLetterMessages 1 100⟩]

/-- It ends in one place, which is none of the tables. -/
theorem message_conservation_purgedOrder :
    ∃ place : Place, place.Holds (history .deleteFirst .empty purgedOrder)
      (finalDatabase .deleteFirst .empty purgedOrder) 7 ∧ place ≠ .live ∧
        place ≠ .deadLettered := by
  obtain ⟨hplaces, -⟩ := message_conservation .deleteFirst purgedOrder (by decide) (by decide)
  have henqueued : Enqueued (history .deleteFirst .empty purgedOrder) 7 := by
    unfold Enqueued
    decide +kernel
  obtain ⟨place, hplace⟩ := (hplaces 7).1.mp henqueued
  refine ⟨place, hplace, ?_, ?_⟩
  · rintro rfl
    revert hplace
    unfold Place.Holds Database.Live
    decide +kernel
  · rintro rfl
    revert hplace
    unfold Place.Holds Database.Archived
    decide +kernel

end Retsu
