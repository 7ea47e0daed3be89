/-
  The accounts of delivery attempts.

  The attempts stored with a message are the number of its deliveries so far (`Accounted`), and a
  delivery stays within the limit that the dequeue has read from the queue.  Limits may be raised
  and lowered at any moment in between.
-/
import Retsu.Trace

namespace Retsu

open Relational Concurrency

variable {order : TriggerOrder} {events : List Event} {db : Database}

/-! ## Counting deliveries -/

/-- The attempts that a delivery reports. -/
def Response.deliveryAttempts : Response → Option Nat
  | .dequeueMessage (.dequeued _ _ _ _ deliveryAttempts _ _) => some deliveryAttempts
  | _ => none

theorem Response.delivered_of_attempts {response : Response} {k : Nat}
    (h : response.deliveryAttempts = some k) : ∃ id, response.delivered = some id := by
  cases response with
  | dequeueMessage outcome =>
    cases outcome with
    | dequeued id => exact ⟨id, rfl⟩
    | _ => simp [Response.deliveryAttempts] at h
  | _ => simp [Response.deliveryAttempts] at h

/-- How often the message has been delivered. -/
def deliveries (events : List Event) (id : Uuid) : Nat :=
  events.countP fun e => e.response.delivered = some id

@[simp] theorem deliveries_nil (id : Uuid) : deliveries [] id = 0 := rfl

theorem deliveries_append (events : List Event) (e : Event) (id : Uuid) :
    deliveries (events ++ [e]) id =
      deliveries events id + if e.response.delivered = some id then 1 else 0 := by
  simp [deliveries, List.countP_append, List.countP_singleton]

/-- What the attempts of a run's messages account for. -/
structure Accounted (events : List Event) (db : Database) : Prop where
  /-- A live message has its deliveries for attempts, and is READY until the first one. -/
  live : ∀ m ∈ db.queueMessage, m.deliveryAttempts = deliveries events m.id ∧
    m.deliveryAttempts ≤ 100 ∧ (m.state = .ready ↔ deliveries events m.id = 0)
  /-- So has an archived one. -/
  deadLettered : ∀ d ∈ db.queueDeadLetterMessage, d.deliveryAttempts = deliveries events d.id
  /-- The k-th delivery of a message reports k. -/
  reported : ∀ past e future, events = past ++ e :: future → ∀ id,
    e.response.delivered = some id → e.response.deliveryAttempts = some (deliveries past id + 1)

/-- The event delivers within the limit of the queue and archives only what has reached it. -/
structure Event.WithinLimit (e : Event) (queue : QueueRow) : Prop where
  limit_le : queue.maxDeliveryAttempts ≤ 100
  delivered : ∀ k, e.response.deliveryAttempts = some k → (k : Int) ≤ queue.maxDeliveryAttempts
  deadLettered : ∀ d ∈ e.after.queueDeadLetterMessage, d ∉ e.before.queueDeadLetterMessage →
    queue.maxDeliveryAttempts ≤ d.deliveryAttempts

/-! ## Traces -/

/-- A message that no event has enqueued has never been delivered. -/
theorem Trace.deliveries_eq_zero (trace : Trace events db) {id : Uuid}
    (hunknown : ∀ e ∈ events, e.op.enqueuedId ≠ some id) : deliveries events id = 0 := by
  rw [deliveries, List.countP_eq_zero]
  intro e he hdelivered
  obtain ⟨past, future, rfl⟩ := List.append_of_mem he
  obtain ⟨hpast, -, -, queues, -, heffect⟩ := trace.split
  obtain ⟨-, -, m, -, -, -, -, -, hm, hid, -⟩ := heffect.delivery (by simpa using hdelivered)
  obtain ⟨e', he', hstores⟩ := hpast.provenance m hm
  exact hunknown e' (List.mem_append_left _ he') (hid ▸ hstores.enqueuedId)

/-- An event that leaves a live row as it is has not delivered it. -/
theorem Effect.not_delivered {queues : List QueueRow} {db' : Database} {now : Int} {op : Operation}
    {response : Response} (h : db.Valid) (hvalid : db'.Valid)
    (heffect : Effect queues db now op response db') {m : QueueMessage}
    (hm : m ∈ db.queueMessage) (hm' : m ∈ db'.queueMessage) : response.delivered ≠ some m.id := by
  intro hid
  obtain ⟨queue, receiptHandle, r, -, -, -, hr, hrid, -, -, hlease⟩ := heffect.delivered h hid
  obtain rfl := eq_of_key_eq h.messages.ids hr hm hrid
  have hsame := eq_of_key_eq hvalid.messages.ids hlease hm' rfl
  have : r.deliveryAttempts + 1 = r.deliveryAttempts := congrArg QueueMessage.deliveryAttempts hsame
  omega

/-- **Attempts are deliveries**, of live and of archived messages. -/
theorem Trace.attempts (trace : Trace events db) :
    (∀ m ∈ db.queueMessage, m.deliveryAttempts = deliveries events m.id) ∧
      ∀ d ∈ db.queueDeadLetterMessage, d.deliveryAttempts = deliveries events d.id := by
  induction trace with
  | start => simp [Database.empty]
  | draw trace hseq ih => exact ih
  | @event events e queues trace hfresh hqueues heffect hvalid ih =>
    obtain ⟨hlive, hdead⟩ := ih
    constructor
    · intro m' hm'
      rw [deliveries_append]
      have horigin := heffect.origin trace.valid hm'
      generalize hop : e.op = op at horigin
      generalize hresponse : e.response = response at horigin
      cases horigin with
      | kept hm =>
        have := heffect.not_delivered trace.valid hvalid hm hm'
        rw [if_neg (hresponse ▸ this), hlive m' hm]
        simp
      | @enqueued queueId message ttl _ hid =>
        have hzero : deliveries events message.id = 0 :=
          trace.deliveries_eq_zero (hfresh message.id (by rw [hop]; rfl))
        simp [Message.row, hzero, Response.delivered]
      | @leased queue receiptHandle m _ outcome hqueue hchecked hm hcandidate htimely houtcome =>
        have hone : (Response.dequeueMessage outcome).delivered = some m.id := houtcome.delivered
        show m.deliveryAttempts + 1 = (deliveries events m.id +
          if (Response.dequeueMessage outcome).delivered = some m.id then 1 else 0 : Nat)
        rw [if_pos hone, hlive m hm]
        rfl
    · intro d hd
      rw [deliveries_append]
      have horigin := heffect.deadLetter_origin hd
      generalize hop : e.op = op at horigin
      generalize hresponse : e.response = response at horigin
      cases horigin with
      | kept hd' =>
        -- what has been archived is not live, so it is not delivered
        have hne : e.response.delivered ≠ some d.id := fun hid => by
          obtain ⟨-, -, m, -, -, -, hm, hmid, -⟩ := heffect.delivered trace.valid hid
          exact trace.disjoint m hm d hd' hmid.symm
        rw [if_neg (hresponse ▸ hne), hdead d hd']
        simp
      | deadLettered hqueue hm hexhausted hrow hgone =>
        obtain ⟨delivered, -, rfl⟩ := deadLetter_eq_ok.mp hrow
        have hne : e.response.delivered ≠ some _ := fun hid => by
          obtain ⟨queue, receiptHandle, m, -, -, -, -, hmid, -, -, hlease⟩ :=
            heffect.delivered trace.valid hid
          exact hgone _ hlease hmid
        rw [if_neg (hresponse ▸ hne), hlive _ hm]
        simp

theorem Trace.accounted (trace : Trace events db) : Accounted events db where
  live m hm := by
    have hattempts := trace.attempts.1 m hm
    have hchecked := trace.valid.messages.checked m hm
    refine ⟨hattempts, trace.valid.attempts m hm, ?_⟩
    rcases (QueueMessage.checked_iff.mp hchecked).2.2.2.1 with ⟨hready, -, -, hzero⟩ |
      ⟨hflight, -, -, hpositive⟩
    · simp only [hready, true_iff]
      omega
    · simp only [hflight, reduceCtorEq, false_iff]
      omega
  deadLettered := trace.attempts.2
  reported past e future hevents id hid := by
    subst hevents
    obtain ⟨hpast, -, -, queues, -, heffect⟩ := trace.split
    obtain ⟨queue, receiptHandle, m, payload, priority, deadLettered, -, -, hm, rfl, -, -, -,
      hresponse⟩ := heffect.delivery hid
    rw [hresponse]
    show some (m.deliveryAttempts + 1).toNat = _
    rw [hpast.attempts.1 m hm]
    rfl

/-! ## Limits -/

/-- A dequeue that has read this queue keeps to its limit. -/
theorem Effect.withinLimit {queues : List QueueRow} {e : Event} {queue : QueueRow}
    (heffect : Effect queues e.before e.now e.op e.response e.after)
    (hchecked : Checked queueChecks queue)
    (hqueue : ∀ q ∈ queues, ∀ receiptHandle, e.op = .dequeueMessage q.id receiptHandle →
      q = queue) : e.WithinLimit queue where
  limit_le := (QueueRow.checked_iff.mp hchecked).2.2.2.1.2
  delivered k hk := by
    obtain ⟨id, hid⟩ := Response.delivered_of_attempts hk
    obtain ⟨q, receiptHandle, m, payload, priority, deadLettered, hop, hq, hm, -, hcandidate, -, -,
      hresponse⟩ := heffect.delivery hid
    obtain rfl := hqueue q hq receiptHandle hop
    rw [hresponse] at hk
    have hk : (m.deliveryAttempts + 1).toNat = k := Option.some.inj hk
    have hlimit := (QueueRow.checked_iff.mp hchecked).2.2.2.1.1
    simp only [isCandidate, decide_eq_true_eq] at hcandidate
    omega
  deadLettered d hd hnew := by
    have horigin := heffect.deadLetter_origin hd
    generalize hop : e.op = op at horigin
    generalize e.response = response at horigin
    cases horigin with
    | kept hd' => exact absurd hd' hnew
    | @deadLettered q receiptHandle m _ _ hq hm hexhausted hrow hgone =>
      obtain rfl := hqueue q hq receiptHandle hop
      obtain ⟨delivered, -, rfl⟩ := deadLetter_eq_ok.mp hrow
      simp only [isDeadLetterCandidate, decide_eq_true_eq] at hexhausted
      exact hexhausted.2.2.2.2

/-- Neither the SMALLINT column nor a conversion of it has overflowed. -/
def Response.Converted (response : Response) : Prop :=
  response ≠ .failed (.sql .numericValueOutOfRange) ∧ ∀ context, response ≠ .failed (.decode context)

theorem Answers.converted {queue : Option QueueRow} {response : Response}
    (h : Answers queue response) : response.Converted := by
  cases h with
  | notFound | answered => exact ⟨by simp, by simp⟩
  | rejected hqueue he =>
    refine ⟨fun heq => ?_, by simp⟩
    obtain rfl := RepositoryError.sql.inj (Response.failed.inj heq)
    simp [dequeueRejections] at he

/-- **Delivery attempts are accounted for.**  Whatever limits `update_queue` sets in between, in
    histories with fresh message ids and in every interleaving of transactions: the attempts of a
    message are its deliveries, live or archived; its k-th delivery reports k; a message is READY
    until its first delivery; a delivery keeps to the limit that its dequeue has read, at most
    100, and what is archived has reached it; and no dequeue fails for a number out of range. -/
theorem delivery_accounting (order : TriggerOrder) :
    (∀ calls, FreshIds calls →
      Accounted (history order .empty calls) (finalDatabase order .empty calls) ∧
      ∀ e ∈ history order .empty calls, ∀ queueId receiptHandle,
        e.op = .dequeueMessage queueId receiptHandle → e.response.Converted ∧
          ∀ queue, targetQueue e.before queueId = some queue → e.WithinLimit queue) ∧
    ∀ s, Reachable order s → Accounted s.log s.db ∧
      ∀ tid t queueId receiptHandle, s.txns tid = some t → t.phase.active →
        t.op = .dequeueMessage queueId receiptHandle →
          (s.commitEvent order t).response.Converted ∧
            ∀ queue, t.queue = some queue → (s.commitEvent order t).WithinLimit queue := by
  refine ⟨fun calls hfresh => ⟨(Trace.of_calls order hfresh).accounted,
    fun e he queueId receiptHandle hop => ?_⟩, fun s hs => ⟨(Trace.of_log hs).accounted,
    fun tid t queueId receiptHandle ht hactive hop => ?_⟩⟩
  · obtain ⟨hvalid, hevent, heffect⟩ := event_of_history Database.empty_valid he
    have hresponse : e.response = (dequeueMessage order e.before e.now queueId receiptHandle).2 := by
      rw [hevent, hop]
      rfl
    refine ⟨?_, fun queue htarget => ?_⟩
    · rw [hresponse]
      exact (dequeueMessage_answers hvalid order e.now queueId receiptHandle).converted
    · obtain ⟨hqueue, hid⟩ := hvalid.find_queue.mp htarget
      refine heffect.withinLimit (hvalid.queueChecked queue hqueue) fun q hq receiptHandle' hop' => ?_
      obtain ⟨hqid, -⟩ := Operation.dequeueMessage.inj (hop.symm.trans hop')
      exact eq_of_key_eq hvalid.queueIds hq hqueue (hqid.symm.trans hid.symm)
  · have hinv := hs.inv.txn tid t ht hactive
    refine ⟨(hinv.answers hs.inv.valid order hop).converted, fun queue hqueue => ?_⟩
    have heffect := (hinv.execute_effect hs.inv.valid order).1
    refine Effect.withinLimit (e := s.commitEvent order t) heffect (hinv.queue queue hqueue).1 ?_
    intro q hq receiptHandle' hop'
    rw [hqueue] at hq
    exact List.mem_singleton.mp hq

/-- Two deliveries, a limit lowered below them, and the dead letter that the next dequeue makes. -/
def exhaustedOrder : List Call := [
  ⟨0, .createQueue (ordersQueue 5 fiveAttempts_inRange)⟩,
  ⟨0, .enqueueMessage 1 (orderMessage 7) 60⟩,
  ⟨0, .dequeueMessage 1 11⟩,
  ⟨1000000, .dequeueMessage 1 12⟩,
  ⟨1000000, .updateQueue 1 oneAttemptUpdate⟩,
  ⟨2000000, .dequeueMessage 1 13⟩]

/-- The dead letter of `exhaustedOrder` has the two deliveries for attempts. -/
theorem delivery_accounting_exhaustedOrder :
    (history .deleteFirst .empty exhaustedOrder).map (·.response.deliveryAttempts) =
      [none, none, some 1, some 2, none, none] ∧
    (finalDatabase .deleteFirst .empty exhaustedOrder).queueDeadLetterMessage.map
      (fun d => (d.id, d.deliveryAttempts)) = [(7, 2)] ∧
    Accounted (history .deleteFirst .empty exhaustedOrder)
      (finalDatabase .deleteFirst .empty exhaustedOrder) :=
  ⟨by decide +kernel, by decide +kernel,
    ((delivery_accounting .deleteFirst).1 exhaustedOrder (by decide)).1⟩

end Retsu
