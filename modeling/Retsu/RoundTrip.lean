/-
  From an enqueue to the deliveries of its message.

  The columns that a delivery returns are written once, by the enqueue, and no lease changes them;
  and every row that the repository can store decodes.  So a delivery returns what was enqueued,
  and no message is leased without being delivered.
-/
import Retsu.Application
import Retsu.DeliveryAccounting
import Retsu.LiveRows

namespace Retsu

open Relational Concurrency

variable {order : TriggerOrder} {events : List Event} {db : Database}

/-! ## What is written reads back -/

theorem MessagePriority.rank_inj {p q : MessagePriority} (h : p.rank = q.rank) : p = q := by
  have := congrArg fromRank h
  rw [fromRank_rank, fromRank_rank] at this
  exact Option.some.inj this

/-! ## Traces -/

/-- Only one event of a trace brings along a message id. -/
theorem Trace.fresh (trace : Trace events db) {e e' : Event} (he : e ∈ events) (he' : e' ∈ events)
    {id : Uuid} (hid : e.op.enqueuedId = some id) (hid' : e'.op.enqueuedId = some id) : e = e' := by
  induction trace with
  | start => simp at he
  | draw trace hseq ih => exact ih he he'
  | @event events last queues trace hfresh hqueues heffect hvalid ih =>
    have hnew : last.op.enqueuedId = some id → ∀ x ∈ events, x.op.enqueuedId ≠ some id :=
      fun h => hfresh id h
    rcases List.mem_append.mp he with he | he <;> rcases List.mem_append.mp he' with he' | he'
    · exact ih he he'
    · rw [List.mem_singleton.mp he'] at hid'
      exact absurd hid (hnew hid' e he)
    · rw [List.mem_singleton.mp he] at hid
      exact absurd hid' (hnew hid e' he')
    · rw [List.mem_singleton.mp he, List.mem_singleton.mp he']

/-- **A delivery returns what was enqueued**, under the name of the queue it was enqueued to. -/
theorem Trace.roundTrip {past between future : List Event} {e d : Event}
    (trace : Trace (past ++ e :: between ++ d :: future) db) {queueId : Uuid} {message : Message}
    {ttl : UInt32} (hop : e.op = .enqueueMessage queueId message ttl)
    (hdelivered : d.response.delivered = some message.id) :
    ∃ queue receiptHandle k deadLettered, d.op = .dequeueMessage queueId receiptHandle ∧
      targetQueue d.before queueId = some queue ∧
      d.response = .dequeueMessage (.dequeued message.id message.payload message.priority
        receiptHandle k queue.name deadLettered) := by
  obtain ⟨hbefore, -, -, queues, hqueues, heffect⟩ := trace.split
  obtain ⟨q, receiptHandle, m, payload, priority, deadLettered, hdop, hq, hm, hmid, hcandidate,
    hpayload, hpriority, hresponse⟩ := heffect.delivery hdelivered
  -- the row comes from the one event that has enqueued this id
  obtain ⟨e', he', hstores⟩ := hbefore.provenance m hm
  have hid : e.op.enqueuedId = some m.id := by
    rw [hop, hmid]
    rfl
  obtain rfl := hbefore.fresh he' (by simp) hstores.enqueuedId hid
  obtain ⟨message', ttl', hop', -, hpayload', hpriority'⟩ := hstores.enqueues
  obtain ⟨hqueueId, rfl, -⟩ := Operation.enqueueMessage.inj (hop.symm.trans hop')
  obtain rfl : payload = message.payload :=
    String.toByteArray_inj.mp (hpayload.symm.trans hpayload'.symm)
  obtain rfl : priority = message.priority :=
    MessagePriority.rank_inj (hpriority.symm.trans hpriority'.symm)
  simp only [isCandidate, decide_eq_true_eq] at hcandidate
  obtain ⟨q', hq', hqid, hname⟩ := hqueues q hq
  refine ⟨q', receiptHandle, (m.deliveryAttempts + 1).toNat, deadLettered, ?_, hbefore.valid.find_queue.mpr ⟨hq', ?_⟩, ?_⟩
  · rw [hdop, hcandidate.1, hqueueId]
  · rw [hqid, hcandidate.1, hqueueId]
  · rw [hresponse, hname]

/-- No row is leased without being delivered. -/
theorem Effect.leased_delivered {queues : List QueueRow} {db' : Database} {now : Int}
    {op : Operation} {response : Response} (h : db.Valid)
    (heffect : Effect queues db now op response db') {m m' : QueueMessage}
    (hm : m ∈ db.queueMessage) (hm' : m' ∈ db'.queueMessage) (hid : m'.id = m.id)
    (hchanged : m' ≠ m) : response.delivered = some m.id := by
  cases heffect.origin h hm' with
  | kept hmem => exact absurd (eq_of_key_eq h.messages.ids hmem hm hid) hchanged
  | enqueued hnew => exact absurd hid.symm (hnew m hm)
  | leased hqueue hchecked hr hcandidate htimely houtcome =>
    rw [← hid]
    exact houtcome.delivered

/-! ## Whole runs -/

/-- What the events of a run have returned of the messages enqueued in it. -/
structure RoundTrips (events : List Event) : Prop where
  /-- A delivery returns the id, the payload and the label that its message was enqueued with,
      the receipt handle that the dequeue has brought along, and the name of the queue. -/
  returned : ∀ past e between d future, events = past ++ e :: between ++ d :: future →
    ∀ queueId id payload label ttlSeconds message ttl,
      Message.new id payload label ttlSeconds = .ok message →
      e.op = .enqueueMessage queueId message ttl → d.response.delivered = some id →
      ∃ queue receiptHandle priority k deadLettered outcome,
        d.op = .dequeueMessage queueId receiptHandle ∧
        targetQueue d.before queueId = some queue ∧ priority.asStr = label ∧
        d.response = .dequeueMessage outcome ∧
        DequeueMessageResult.of (.ok outcome) =
          .ok ⟨some ⟨id, payload, priority, receiptHandle, k⟩, queue.name, deadLettered⟩
  /-- A row that has been leased has been delivered. -/
  delivered : ∀ e ∈ events, ∀ m ∈ e.before.queueMessage, ∀ m' ∈ e.after.queueMessage,
    m'.id = m.id → m' ≠ m → e.response.delivered = some m.id

theorem Trace.roundTrips (trace : Trace events db) : RoundTrips events where
  returned past e between d future hevents queueId id payload label ttlSeconds message ttl hnew hop
      hdelivered := by
    subst hevents
    obtain ⟨rfl, rfl, rfl, -⟩ := Message.new_eq_ok hnew
    obtain ⟨queue, receiptHandle, k, deadLettered, hdop, htarget, hresponse⟩ :=
      trace.roundTrip hop hdelivered
    exact ⟨queue, receiptHandle, message.priority, k, deadLettered, _, hdop, htarget, rfl,
      hresponse, rfl⟩
  delivered e he m hm m' hm' hid hchanged := by
    obtain ⟨past, future, rfl⟩ := List.append_of_mem he
    obtain ⟨hbefore, -, -, queues, -, heffect⟩ := trace.split
    exact heffect.leased_delivered hbefore.valid hm hm' hid hchanged

/-- The answer says that there is no queue exactly when none has been read. -/
theorem Answers.notFound_iff {queue : Option QueueRow} {response : Response}
    (h : Answers queue response) : response = .dequeueMessage .queueNotFound ↔ queue = none := by
  cases h with
  | notFound hqueue => simp [hqueue]
  | answered hqueue hfound => simp [hqueue, hfound]
  | rejected hqueue => simp [hqueue]

/-- **What is enqueued is what is delivered**, in every history with fresh message ids and in every
    interleaving of transactions.  In every database that operations reach a dequeue never fails
    to decode its row; it answers that the queue does not exist exactly when there is no such row,
    in the snapshot of the statement if others run beside it. -/
theorem enqueue_dequeue_roundTrip (order : TriggerOrder) :
    (∀ calls, FreshIds calls → RoundTrips (history order .empty calls)) ∧
    (∀ s, Reachable order s → RoundTrips s.log) ∧
    (∀ db : Database, db.Reached order → ∀ now queueId receiptHandle,
      (dequeueMessage order db now queueId receiptHandle).2.Converted ∧
      ((dequeueMessage order db now queueId receiptHandle).2 = .dequeueMessage .queueNotFound ↔
        ∀ q ∈ db.queue, q.id ≠ queueId)) ∧
    ∀ s, Reachable order s → ∀ tid t queueId receiptHandle, s.txns tid = some t →
      t.phase.active → t.op = .dequeueMessage queueId receiptHandle →
        (s.commitEvent order t).response.Converted ∧
        ((s.commitEvent order t).response = .dequeueMessage .queueNotFound ↔ t.queue = none) := by
  refine ⟨fun calls hfresh => (Trace.of_calls order hfresh).roundTrips,
    fun s hs => (Trace.of_log hs).roundTrips, fun db hdb now queueId receiptHandle => ?_,
    fun s hs tid t queueId receiptHandle ht hactive hop => ?_⟩
  · have hanswers := dequeueMessage_answers hdb.valid order now queueId receiptHandle
    refine ⟨hanswers.converted, hanswers.notFound_iff.trans ?_⟩
    exact find?_key_eq_none
  · have hanswers := (hs.inv.txn tid t ht hactive).answers hs.inv.valid order hop
    exact ⟨hanswers.converted, hanswers.notFound_iff⟩

/-- A message with an empty payload and one with a NUL and a letter outside ASCII. -/
def unusualOrders : List Call := [
  ⟨0, .createQueue (ordersQueue 5 fiveAttempts_inRange)⟩,
  ⟨0, .enqueueMessage 1 { orderMessage 7 with payload := "", priority := .low } 60⟩,
  ⟨0, .enqueueMessage 1 { orderMessage 8 with payload := "\x00é", priority := .high } 60⟩,
  ⟨1, .dequeueMessage 1 11⟩,
  ⟨1, .dequeueMessage 1 12⟩]

/-- Both payloads come back. -/
theorem enqueue_dequeue_roundTrip_unusualOrders :
    ((history .deleteFirst .empty unusualOrders).map (·.response)).drop 3 = [
      .dequeueMessage (.dequeued 8 "\x00é" .high 11 1 "orders" 0),
      .dequeueMessage (.dequeued 7 "" .low 12 1 "orders" 0)] ∧
    RoundTrips (history .deleteFirst .empty unusualOrders) :=
  ⟨by decide +kernel, (enqueue_dequeue_roundTrip .deleteFirst).1 unusualOrders (by decide)⟩

end Retsu
