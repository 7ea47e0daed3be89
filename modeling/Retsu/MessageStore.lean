/-
  What the service is for: a store of messages that hands each of them out.

  `MessageStore` knows queues by their ids, live messages and archived ones by theirs, and nothing
  of tables, statements, locks or transactions.  `Does` says what an operation may do to it at a
  time and what it then answers.  It leaves open which message a dequeue hands out, and which ones
  it archives on the way; the statements select them, and say more about it elsewhere.
-/
import Retsu.Ledger
import Retsu.Relational.Lookup

namespace Retsu

open Relational

/-! ## The store -/

/-- The configuration of a queue. -/
structure QueueLimits where
  visibilityTimeoutSeconds : Int
  maxDeliveryAttempts : Int
  defaultMessageTtlSeconds : Int

namespace QueueLimits

def ofSettings (settings : QueueSettings) : QueueLimits where
  visibilityTimeoutSeconds := settings.visibilityTimeoutSeconds.toNat
  maxDeliveryAttempts := settings.maxDeliveryAttempts.toNat
  defaultMessageTtlSeconds := settings.defaultMessageTtlSeconds.toNat

def ofDetails (details : QueueDetails) : QueueLimits where
  visibilityTimeoutSeconds := details.visibilityTimeoutSeconds.toNat
  maxDeliveryAttempts := details.maxDeliveryAttempts.toNat
  defaultMessageTtlSeconds := details.defaultMessageTtlSeconds.toNat

/-- What an update leaves out stays as it is. -/
def configure (limits : QueueLimits) (configuration : QueueConfigurationUpdate) : QueueLimits where
  visibilityTimeoutSeconds := (configuration.visibilityTimeoutSeconds.map fun value =>
    (value.toNat : Int)).getD limits.visibilityTimeoutSeconds
  maxDeliveryAttempts := (configuration.maxDeliveryAttempts.map fun value =>
    (value.toNat : Int)).getD limits.maxDeliveryAttempts
  defaultMessageTtlSeconds := (configuration.defaultMessageTtlSeconds.map fun value =>
    (value.toNat : Int)).getD limits.defaultMessageTtlSeconds

end QueueLimits

structure StoredQueue where
  name : String
  limits : QueueLimits
  /-- What its configuration has been before. -/
  earlier : List QueueLimits

/-- The configuration that the queue has, or has had. -/
def StoredQueue.Knows (queue : StoredQueue) (limits : QueueLimits) : Prop :=
  limits = queue.limits ∨ limits ∈ queue.earlier

inductive Availability
  | ready
  | leased (receiptHandle : Uuid) (ending : Int)

/-- Nobody has the message at this time. -/
def Availability.FreeAt (now : Int) : Availability → Prop
  | ready => True
  | leased _ ending => ending ≤ now

structure LiveMessage where
  header : Header
  attempts : Int
  availability : Availability

structure ArchivedMessage where
  header : Header
  attempts : Int
  archivedAt : Int

namespace LiveMessage

/-- The message may be handed out. -/
structure Deliverable (m : LiveMessage) (queueId : Uuid) (limits : QueueLimits) (now : Int) :
    Prop where
  queue : m.header.queueId = queueId
  unexpired : now < m.header.expiresAt
  attempts : m.attempts < limits.maxDeliveryAttempts
  free : m.availability.FreeAt now

/-- The message has been handed out as often as it may be, and nobody has it. -/
structure Exhausted (m : LiveMessage) (queueId : Uuid) (limits : QueueLimits) (now : Int) :
    Prop where
  queue : m.header.queueId = queueId
  unexpired : now < m.header.expiresAt
  attempts : limits.maxDeliveryAttempts ≤ m.attempts
  free : m.availability.FreeAt now

structure Expired (m : LiveMessage) (now : Int) : Prop where
  expired : m.header.expiresAt ≤ now
  free : m.availability.FreeAt now

/-- The lease with this receipt handle runs. -/
structure Held (m : LiveMessage) (queueId receiptHandle : Uuid) (now : Int) : Prop where
  queue : m.header.queueId = queueId
  running : ∃ ending, m.availability = .leased receiptHandle ending ∧ now < ending

def lease (m : LiveMessage) (receiptHandle : Uuid) (ending : Int) : LiveMessage :=
  { m with attempts := m.attempts + 1, availability := .leased receiptHandle ending }

def archive (m : LiveMessage) (now : Int) : ArchivedMessage := ⟨m.header, m.attempts, now⟩

end LiveMessage

structure MessageStore where
  queues : Uuid → Option StoredQueue
  live : Uuid → Option LiveMessage
  archived : Uuid → Option ArchivedMessage

namespace MessageStore

def empty : MessageStore := ⟨fun _ => none, fun _ => none, fun _ => none⟩

/-! ## Operations -/

def setQueue (store : MessageStore) (id : Uuid) (queue : StoredQueue) : MessageStore :=
  { store with queues := Function.update store.queues id (some queue) }

def add (store : MessageStore) (m : LiveMessage) : MessageStore :=
  { store with live := Function.update store.live m.header.id (some m) }

def remove (store : MessageStore) (gone : List Uuid) : MessageStore :=
  { store with live := fun id => if id ∈ gone then none else store.live id }

def purge (store : MessageStore) (gone : List Uuid) : MessageStore :=
  { store with archived := fun id => if id ∈ gone then none else store.archived id }

def archive (store : MessageStore) (gone : List Uuid) (now : Int) : MessageStore :=
  { store.remove gone with
    archived := fun id => if id ∈ gone then (store.live id).map (·.archive now)
      else store.archived id }

/-- The message is leased, if there is one. -/
def lease (store : MessageStore) (delivered : Option Uuid) (receiptHandle : Uuid) (ending : Int) :
    MessageStore :=
  { store with live := fun id =>
      if delivered = some id then (store.live id).map (·.lease receiptHandle ending)
      else store.live id }

/-- What a dequeue answers when it hands this message out. -/
inductive Hands (store : MessageStore) (queueName : String) (receiptHandle : Uuid)
    (deadLettered : Nat) : Option Uuid → DequeueMessageOutcome → Prop
  | empty : Hands store queueName receiptHandle deadLettered none (.empty queueName deadLettered)
  | dequeued {id : Uuid} {m : LiveMessage} {payload : String} {priority : MessagePriority}
      (hlive : store.live id = some m) (hpayload : m.header.payload = payload.toByteArray)
      (hpriority : m.header.priority = priority.rank) :
      Hands store queueName receiptHandle deadLettered (some id)
        (.dequeued id payload priority receiptHandle (m.attempts + 1).toNat queueName deadLettered)

/-- What an operation may do at `now`.  A dequeue that finds no queue and an acknowledge that finds
    nothing to delete have decided so a little earlier; `Saw` says what they saw then. -/
inductive Does (store : MessageStore) (now : Int) : Operation → Response → MessageStore → Prop
  | failed {op : Operation} {error : RepositoryError} : Does store now op (.failed error) store
  | alreadyExists {queue : Queue}
      (hname : ∃ id q, store.queues id = some q ∧ q.name = queue.name.asStr) :
      Does store now (.createQueue queue) (.createQueue .alreadyExists) store
  | created {queue : Queue} (hid : store.queues queue.id = none)
      (hname : ∀ id q, store.queues id = some q → q.name ≠ queue.name.asStr) :
      Does store now (.createQueue queue) (.createQueue .created)
        (store.setQueue queue.id ⟨queue.name.asStr, .ofSettings queue.settings, []⟩)
  | notConfigured {queueId : Uuid} {configuration : QueueConfigurationUpdate}
      (hqueue : store.queues queueId = none) :
      Does store now (.updateQueue queueId configuration) (.updateQueue none) store
  | configured {queueId : Uuid} {configuration : QueueConfigurationUpdate} {q : StoredQueue}
      {details : QueueDetails} (hqueue : store.queues queueId = some q)
      (hname : details.id = queueId ∧ details.name = q.name)
      (hdetails : QueueLimits.ofDetails details = q.limits.configure configuration) :
      Does store now (.updateQueue queueId configuration) (.updateQueue (some details))
        (store.setQueue queueId
          ⟨q.name, q.limits.configure configuration, q.limits :: q.earlier⟩)
  | enqueued {queueId : Uuid} {message : Message} {ttl : UInt32}
      (hqueue : (store.queues queueId).isSome) (hlive : store.live message.id = none)
      (harchived : store.archived message.id = none) :
      Does store now (.enqueueMessage queueId message ttl) .enqueueMessage
        (store.add ⟨⟨message.id, queueId, message.payload.toByteArray, message.priority.rank, now,
          now + seconds ttl.toNat⟩, 0, .ready⟩)
  | queueNotFound {queueId receiptHandle : Uuid} :
      Does store now (.dequeueMessage queueId receiptHandle) (.dequeueMessage .queueNotFound) store
  | dequeued {queueId receiptHandle : Uuid} {q : StoredQueue} {limits : QueueLimits}
      {exhausted : List Uuid} {delivered : Option Uuid} {outcome : DequeueMessageOutcome}
      (hqueue : store.queues queueId = some q) (hlimits : q.Knows limits)
      (hnodup : exhausted.Nodup)
      (hexhausted : ∀ id ∈ exhausted, ∃ m, store.live id = some m ∧ m.Exhausted queueId limits now)
      (hdelivered : ∀ id, delivered = some id →
        ∃ m, store.live id = some m ∧ m.Deliverable queueId limits now)
      (houtcome : store.Hands q.name receiptHandle exhausted.length delivered outcome) :
      Does store now (.dequeueMessage queueId receiptHandle) (.dequeueMessage outcome)
        ((store.archive exhausted now).lease delivered receiptHandle
          (now + seconds limits.visibilityTimeoutSeconds))
  | acknowledged {queueId messageId receiptHandle : Uuid} {m : LiveMessage}
      (hlive : store.live messageId = some m) (hheld : m.Held queueId receiptHandle now) :
      Does store now (.acknowledgeMessage queueId messageId receiptHandle)
        (.acknowledgeMessage .acknowledged) (store.remove [messageId])
  | unchanged {queueId messageId receiptHandle : Uuid} :
      Does store now (.acknowledgeMessage queueId messageId receiptHandle)
        (.acknowledgeMessage .unchanged) store
  | expired {batchSize : UInt32} {gone : List Uuid} {summary : ExpiredMessagesCleanupSummary}
      (hnodup : gone.Nodup) (hgone : ∀ id ∈ gone, ∃ m, store.live id = some m ∧ m.Expired now)
      (hsummary : summary.processed = gone.length) :
      Does store now (.processExpiredMessages batchSize) (.processExpiredMessages summary)
        (store.remove gone)
  | purged {retentionSeconds : Int} {batchSize : UInt32} {gone : List Uuid}
      {summary : DeadLetterMessagesPurgeSummary} (hnodup : gone.Nodup)
      (hgone : ∀ id ∈ gone, ∃ m, store.archived id = some m ∧
        m.archivedAt ≤ now - seconds retentionSeconds)
      (hsummary : summary.purged = gone.length) :
      Does store now (.purgeDeadLetterMessages retentionSeconds batchSize)
        (.purgeDeadLetterMessages summary) (store.purge gone)

/-- What was the case when the operation decided what to do, at some time since it was asked for. -/
def Saw (store : MessageStore) (now : Int) : Operation → Response → Prop
  | .dequeueMessage queueId _, .dequeueMessage .queueNotFound => store.queues queueId = none
  | .acknowledgeMessage queueId messageId receiptHandle, .acknowledgeMessage .unchanged =>
    ∀ m, store.live messageId = some m → ¬m.Held queueId receiptHandle now
  | _, _ => True

end MessageStore

end Retsu
