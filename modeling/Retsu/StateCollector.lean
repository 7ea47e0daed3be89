/-
  `PostgresQueueStateCollector::collect`: the query behind the queue gauges.

  It joins every queue with the three priorities, takes the physical counts from the rollup
  and corrects them by what has changed with time alone: READY messages that have expired and
  leases that have elapsed.  The CTEs and the lateral subqueries are functions of their own,
  under the names they have in the query.  Ages are exact rationals.
-/
import Retsu.Repository

namespace Retsu

open Relational

structure QueuePriorityStateRow where
  queueName : String
  priority : Int
  ready : Int
  inFlight : Int
  oldestReadyAgeSeconds : Rat
  oldestInFlightAgeSeconds : Rat

structure QueuePriorityStateSnapshot where
  queueName : String
  priority : MessagePriority
  ready : Nat
  inFlight : Nat
  oldestReadyAgeSeconds : Rat
  oldestInFlightAgeSeconds : Rat

/-! ## The common table expressions -/

/-- `VALUES (3), (2), (1)`. -/
def priorities : List Int := [3, 2, 1]

/-- `physical_state`: the shards of a queue and a priority, summed up. -/
def physicalState (shards : List QueuePriorityStateShard) : List ((Uuid ×ₗ Int) × StateCounts) :=
  aggregate (fun s => toLex (s.key.queueId, s.key.priority))
    (fun group => (group.map (·.counts)).sum) shards

/-- `expired_ready`. -/
def expiredReady (messages : List QueueMessage) (now : Int) : List ((Uuid ×ₗ Int) × Int) :=
  aggregate (fun m => toLex (m.queueId, m.priority)) (fun group => (group.length : Int))
    (messages.filter fun m => m.state = .ready ∧ m.expiresAt ≤ now)

/-- `timed_out_in_flight`: the pairs (count, retryable_count).  It groups by the limit of the
    joined queue as well. -/
def timedOutInFlight (queues : List QueueRow) (messages : List QueueMessage) (now : Int) :
    List ((Uuid ×ₗ (Int ×ₗ Int)) × (Int × Int)) :=
  aggregate (fun e => toLex (e.1.queueId, toLex (e.1.priority, e.2.maxDeliveryAttempts)))
    (fun group => ((group.length : Int), ((group.countP fun e =>
      now < e.1.expiresAt ∧ e.1.deliveryAttempts < e.2.maxDeliveryAttempts : Nat) : Int)))
    ((messages.filter fun m => m.state = .inFlight ∧ m.availableAfter ≤ now).flatMap fun m =>
      (queues.filter fun q => q.id = m.queueId).map fun q => (m, q))

/-! ## The lateral subqueries -/

/-- `SELECT enqueued_at … WHERE … ORDER BY enqueued_at LIMIT 1`. -/
def oldestEnqueuedAt (messages : List QueueMessage) (holds : QueueMessage → Bool) : Option Int :=
  (orderBy (·.enqueuedAt) (messages.filter holds)).head?.map (·.enqueuedAt)

/-- The WHERE clause of `oldest_ready`. -/
def isOldestReady (queue : QueueRow) (priority now : Int) (m : QueueMessage) : Bool :=
  m.queueId = queue.id ∧ m.priority = priority ∧ m.state = .ready ∧ now < m.expiresAt

/-- The WHERE clause of `oldest_retryable`. -/
def isOldestRetryable (queue : QueueRow) (priority now : Int) (m : QueueMessage) : Bool :=
  m.queueId = queue.id ∧ m.priority = priority ∧ m.state = .inFlight ∧ m.availableAfter ≤ now ∧
    now < m.expiresAt ∧ m.deliveryAttempts < queue.maxDeliveryAttempts

/-- The WHERE clause of `oldest_in_flight`. -/
def isOldestInFlight (queue : QueueRow) (priority now : Int) (m : QueueMessage) : Bool :=
  m.queueId = queue.id ∧ m.priority = priority ∧ m.state = .inFlight ∧ now < m.availableAfter

/-- `LEAST`, which ignores NULLs. -/
def least : Option Int → Option Int → Option Int
  | some a, some b => some (min a b)
  | some a, none => some a
  | none, b => b

/-- `COALESCE(EXTRACT(EPOCH FROM (CURRENT_TIMESTAMP - enqueued_at)), 0)`. -/
def ageSeconds (now : Int) (enqueuedAt : Option Int) : Rat :=
  (enqueuedAt.map fun t => ((now - t : Int) : Rat) / 1000000).getD 0

/-! ## The query -/

/-- The rows of one queue and one priority. -/
def queuePriorityStateRows (db : Database) (now : Int) (queue : QueueRow) (priority : Int) :
    List QueuePriorityStateRow :=
  (leftJoin (fun e => e.1 = toLex (queue.id, priority))
      (physicalState db.queuePriorityStateShard)).flatMap fun physicalState =>
  (leftJoin (fun e => e.1 = toLex (queue.id, priority))
      (expiredReady db.queueMessage now)).flatMap fun expiredReady =>
  (leftJoin (fun e => (ofLex e.1).1 = queue.id ∧ (ofLex (ofLex e.1).2).1 = priority)
      (timedOutInFlight db.queue db.queueMessage now)).map fun timedOutInFlight => {
    queueName := queue.name
    priority := priority
    ready := (physicalState.map (·.2.1)).getD 0 - (expiredReady.map (·.2)).getD 0 +
      (timedOutInFlight.map (·.2.2)).getD 0
    inFlight := (physicalState.map (·.2.2)).getD 0 - (timedOutInFlight.map (·.2.1)).getD 0
    oldestReadyAgeSeconds := ageSeconds now (least
      (oldestEnqueuedAt db.queueMessage (isOldestReady queue priority now))
      (oldestEnqueuedAt db.queueMessage (isOldestRetryable queue priority now)))
    oldestInFlightAgeSeconds := ageSeconds now
      (oldestEnqueuedAt db.queueMessage (isOldestInFlight queue priority now)) }

/-- The result of the query, ordered by queue name and descending priority. -/
def queueStateRows (db : Database) (now : Int) : List QueuePriorityStateRow :=
  orderBy (fun row => (toLex (row.queueName, -row.priority) : String ×ₗ Int))
    (db.queue.flatMap fun queue => priorities.flatMap (queuePriorityStateRows db now queue))

def snapshotFromRow (row : QueuePriorityStateRow) :
    Except RepositoryError QueuePriorityStateSnapshot :=
  match MessagePriority.fromRank row.priority with
  | none => .error (.decode s!"queue state query returned invalid priority rank {row.priority}")
  | some priority => do
    let ready ← tryFromSigned "queue state query returned a negative ready count" row.ready
    let inFlight ← tryFromSigned "queue state query returned a negative in-flight count"
      row.inFlight
    return {
      queueName := row.queueName
      priority, ready, inFlight
      oldestReadyAgeSeconds := row.oldestReadyAgeSeconds
      oldestInFlightAgeSeconds := row.oldestInFlightAgeSeconds }

def collect (db : Database) (now : Int) :
    Except RepositoryError (List QueuePriorityStateSnapshot) :=
  (queueStateRows db now).mapM snapshotFromRow

end Retsu
