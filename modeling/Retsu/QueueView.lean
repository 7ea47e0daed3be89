/-
  One queue, seen by its own producers and consumers.

  `QueueView` is what they can tell about a queue: its configuration and its messages in the
  order of their enqueues.  In this view an expired message is gone, nobody cleans up, and there
  are no other queues: `run` says what an operation on the queue does and answers, and takes no
  notice of any other operation.
-/
import Retsu.Integrity

namespace Retsu

open Relational

/-! ## The view -/

structure QueueView where
  queue : QueueRow
  /-- In the order of their enqueues; the values of the shared sequence do not matter. -/
  messages : List QueueMessage

/-- The message without its place in the shared sequence. -/
def QueueMessage.unordered (m : QueueMessage) : QueueMessage := { m with enqueueOrder := 0 }

/-- What a consumer can still see at `now`. -/
def QueueView.at (v : QueueView) (now : Int) : QueueView :=
  { v with messages := v.messages.filter fun m => !isExpired now m }

/-- The view of a queue that the database gives. -/
def Database.view (db : Database) (queue : QueueRow) : QueueView where
  queue := queue
  messages := (db.queueMessage.filter fun m => m.queueId = queue.id).map (·.unordered)

/-! ## Operations on the queue -/

namespace QueueView

def enqueue (v : QueueView) (now : Int) (message : Message) (effectiveTtlSeconds : UInt32) :
    QueueView × Response :=
  let row := message.row v.queue.id effectiveTtlSeconds 0 now
  match checkRow queueMessageChecks row with
  | .ok () => ({ v with messages := v.messages ++ [row] }, .enqueueMessage)
  | .error e => (v, .failed (.sql e))

/-- Of the messages with the highest priority, the first that can be delivered. -/
def candidate (v : QueueView) (now : Int) : Option QueueMessage :=
  (orderBy (fun m => -m.priority) (v.messages.filter (isCandidate v.queue now))).head?

/-- The messages that a dequeue gives up. -/
def exhausted (v : QueueView) (now : Int) : List QueueMessage :=
  (orderBy deadLetterOrder (v.messages.filter (isDeadLetterCandidate v.queue now))).take
    dequeueDeadLetterBatchSize

def dequeue (v : QueueView) (now : Int) (receiptHandle : Uuid) : QueueView × Response :=
  let visibility := v.queue.visibilityTimeoutSeconds
  let messages := dequeuedMessages receiptHandle now visibility ((v.exhausted now).map (·.id))
    ((v.candidate now).map (·.id)) v.messages
  ({ v with messages := messages },
    respond .dequeueMessage (decodeDequeue receiptHandle (dequeueMessageRow (some v.queue)
      ((v.candidate now).map fun m => m.lease receiptHandle now visibility)
      (v.exhausted now).length)))

def acknowledge (v : QueueView) (now : Int) (messageId receiptHandle : Uuid) :
    QueueView × Response :=
  if v.messages.any (isAcknowledgeable v.queue.id messageId receiptHandle now) then
    ({ v with messages := v.messages.filter fun m => m.id ≠ messageId },
      .acknowledgeMessage .acknowledged)
  else (v, .acknowledgeMessage .unchanged)

def update (v : QueueView) (now : Int) (configuration : QueueConfigurationUpdate) :
    QueueView × Response :=
  match configuration.parameters with
  | .error e => (v, .failed e)
  | .ok (visibilityTimeoutSeconds, maxDeliveryAttempts, defaultMessageTtlSeconds) =>
    let updated := v.queue.configure now visibilityTimeoutSeconds maxDeliveryAttempts
      defaultMessageTtlSeconds
    match checkRow queueChecks updated with
    | .ok () => ({ v with queue := updated },
        respond .updateQueue ((some updated).mapM queueDetailsFromRow))
    | .error e => (v, .failed (.sql e))

/-- An operation at `now`; one that is not on this queue is not noticed. -/
def run (v : QueueView) (now : Int) : Operation → Option (QueueView × Response)
  | .enqueueMessage queueId message effectiveTtlSeconds =>
    if queueId = v.queue.id then some ((v.at now).enqueue now message effectiveTtlSeconds) else none
  | .dequeueMessage queueId receiptHandle =>
    if queueId = v.queue.id then some ((v.at now).dequeue now receiptHandle) else none
  | .acknowledgeMessage queueId messageId receiptHandle =>
    if queueId = v.queue.id then some ((v.at now).acknowledge now messageId receiptHandle) else none
  | .updateQueue queueId configuration =>
    if queueId = v.queue.id then some ((v.at now).update now configuration) else none
  | .createQueue _ | .processExpiredMessages _ | .purgeDeadLetterMessages _ _ => none

/-! ## Gauges of the queue -/

/-- The messages of a priority that can be delivered. -/
def ready (v : QueueView) (priority now : Int) : Nat :=
  v.messages.countP fun m => m.priority = priority ∧ isCandidate v.queue now m

/-- The messages of a priority that can be acknowledged. -/
def inFlight (v : QueueView) (priority now : Int) : Nat :=
  v.messages.countP fun m => m.priority = priority ∧ m.receiptHandle.any fun receiptHandle =>
    isAcknowledgeable v.queue.id m.id receiptHandle now m

def gauges (v : QueueView) (now : Int) : List (MessagePriority × Nat × Nat) :=
  [.high, .medium, .low].map fun priority =>
    (priority, (v.at now).ready priority.rank now, (v.at now).inFlight priority.rank now)

end QueueView

/-- The operation is on this queue. -/
def Operation.concerns (queueId : Uuid) : Operation → Bool
  | updateQueue id _ | enqueueMessage id _ _ | dequeueMessage id _ | acknowledgeMessage id _ _ =>
    id = queueId
  | createQueue _ | processExpiredMessages _ | purgeDeadLetterMessages _ _ => false

/-! ## Lemmas about views -/

variable {v v' : QueueView} {now later : Int} {m : QueueMessage} {op : Operation}
  {response : Response}

/-- The view notices the operations on its queue, and no others. -/
theorem QueueView.run_eq_none : v.run now op = none ↔ op.concerns v.queue.id = false := by
  cases op <;> simp [QueueView.run, Operation.concerns]

theorem QueueView.concerns_of_run (h : v.run now op = some (v', response)) :
    op.concerns v.queue.id := by
  rw [← Bool.not_eq_false, ← run_eq_none, h]
  simp

/-- An operation keeps the queue's identity. -/
theorem QueueView.run_queue (h : v.run now op = some (v', response)) :
    v'.queue.id = v.queue.id ∧ v'.queue.name = v.queue.name := by
  cases op with
  | createQueue | processExpiredMessages | purgeDeadLetterMessages => simp [QueueView.run] at h
  | dequeueMessage =>
    simp only [QueueView.run, Option.ite_none_right_eq_some, Option.some.injEq, Prod.ext_iff] at h
    obtain ⟨-, rfl, -⟩ := h
    exact ⟨rfl, rfl⟩
  | enqueueMessage | acknowledgeMessage =>
    simp only [QueueView.run, Option.ite_none_right_eq_some, Option.some.injEq, Prod.ext_iff] at h
    obtain ⟨-, rfl, -⟩ := h
    simp only [QueueView.enqueue, QueueView.acknowledge]
    split <;> exact ⟨rfl, rfl⟩
  | updateQueue _ configuration =>
    simp only [QueueView.run, Option.ite_none_right_eq_some, Option.some.injEq, Prod.ext_iff] at h
    obtain ⟨-, rfl, -⟩ := h
    simp only [QueueView.update]
    split
    · exact ⟨rfl, rfl⟩
    · split <;> exact ⟨rfl, rfl⟩

/-- Expired messages stay expired. -/
theorem isExpired_mono (hle : now ≤ later) (h : isExpired now m) : isExpired later m := by
  simp only [isExpired, decide_eq_true_eq] at h ⊢
  obtain ⟨hexpires, hstate⟩ := h
  exact ⟨hexpires.trans hle, hstate.imp_right fun ⟨hflight, havailable⟩ =>
    ⟨hflight, havailable.trans hle⟩⟩

theorem QueueView.at_at (v : QueueView) (hle : now ≤ later) : (v.at now).at later = v.at later := by
  unfold QueueView.at
  simp only [List.filter_filter]
  congr 1
  refine List.filter_congr fun m _ => ?_
  cases hlater : isExpired later m with
  | true => simp
  | false =>
    have hnow : isExpired now m = false := by
      rw [← Bool.not_eq_true] at hlater ⊢
      exact fun h => hlater (isExpired_mono hle h)
    simp [hnow]

end Retsu
