/-
  `PostgresQueueRepository`: the seven operations that change the database, one at a time.

  Each SQL statement is modelled clause by clause: its predicates (`isCandidate` and its
  siblings), its orders, its CTEs and its projection, then the decoding that the Rust code
  does with the result row.  What a statement does with the rows it has selected is a function
  of its own (`executeDequeue`, `executeExpired`, …), since a statement that runs concurrently
  with others selects its rows differently but then does the same with them.

  An operation returns the database it leaves and its result.  A statement that fails changes
  nothing, except that an INSERT has already drawn a value from the sequence.
-/
import Mathlib.Data.String.Basic
import Retsu.Statement

namespace Retsu

open Relational

/-! ## Outcomes and errors -/

inductive RepositoryError
  | sql (error : SqlError)
  /-- An `anyhow` error raised while a result row is decoded. -/
  | decode (context : String)
  /-- A failed `expect`. -/
  | panicked (text : String)
deriving DecidableEq, Repr

inductive CreateQueueOutcome
  | created
  | alreadyExists
deriving DecidableEq, Repr

inductive DequeueMessageOutcome
  | dequeued (id : Uuid) (payload : String) (priority : MessagePriority) (receiptHandle : Uuid)
      (deliveryAttempts : Nat) (queueName : String) (deadLettered : Nat)
  | empty (queueName : String) (deadLettered : Nat)
  | queueNotFound
deriving DecidableEq, Repr

inductive AcknowledgeMessageOutcome
  | acknowledged
  | unchanged
deriving DecidableEq, Repr

structure QueueExpiredMessagesCleanupSummary where
  queueName : String
  neverDelivered : Nat
  previouslyDelivered : Nat
deriving DecidableEq, Repr

def QueueExpiredMessagesCleanupSummary.processed (s : QueueExpiredMessagesCleanupSummary) : Nat :=
  s.neverDelivered + s.previouslyDelivered

structure ExpiredMessagesCleanupSummary where
  perQueue : List QueueExpiredMessagesCleanupSummary
deriving DecidableEq, Repr

def ExpiredMessagesCleanupSummary.processed (s : ExpiredMessagesCleanupSummary) : Nat :=
  (s.perQueue.map (·.processed)).sum

def ExpiredMessagesCleanupSummary.neverDelivered (s : ExpiredMessagesCleanupSummary) : Nat :=
  (s.perQueue.map (·.neverDelivered)).sum

def ExpiredMessagesCleanupSummary.previouslyDelivered (s : ExpiredMessagesCleanupSummary) : Nat :=
  (s.perQueue.map (·.previouslyDelivered)).sum

structure QueueDeadLetterMessagesPurgeSummary where
  queueName : String
  purged : Nat
deriving DecidableEq, Repr

structure DeadLetterMessagesPurgeSummary where
  perQueue : List QueueDeadLetterMessagesPurgeSummary
deriving DecidableEq, Repr

def DeadLetterMessagesPurgeSummary.purged (s : DeadLetterMessagesPurgeSummary) : Nat :=
  (s.perQueue.map (·.purged)).sum

/-! ## Integer conversions -/

/-- `i32::try_from(value).expect(text)`. -/
def expectI32 (text : String) (value : UInt32) : Except RepositoryError Int :=
  if value.toNat < 2 ^ 31 then .ok value.toNat else .error (.panicked text)

/-- `i16::try_from(value).expect(text)`. -/
def expectI16 (text : String) (value : UInt16) : Except RepositoryError Int :=
  if value.toNat < 2 ^ 15 then .ok value.toNat else .error (.panicked text)

/-- A conversion of a signed column to an unsigned type of at least its width. -/
def tryFromSigned (context : String) (value : Int) : Except RepositoryError Nat :=
  if 0 ≤ value then .ok value.toNat else .error (.decode context)

/-! ## Queues -/

def queueDetailsFromRow (row : QueueRow) : Except RepositoryError QueueDetails := do
  let visibilityTimeoutSeconds ← tryFromSigned "stored queue has a negative visibility timeout"
    row.visibilityTimeoutSeconds
  let maxDeliveryAttempts ← tryFromSigned "stored queue has a negative delivery attempt limit"
    row.maxDeliveryAttempts
  let defaultMessageTtlSeconds ← tryFromSigned "stored queue has a negative default message TTL"
    row.defaultMessageTtlSeconds
  return {
    id := row.id
    name := row.name
    visibilityTimeoutSeconds := .ofNat visibilityTimeoutSeconds
    maxDeliveryAttempts := .ofNat maxDeliveryAttempts
    defaultMessageTtlSeconds := .ofNat defaultMessageTtlSeconds }

/-- The row that `create_queue` inserts. -/
def Queue.row (queue : Queue) (now : Int) : Except RepositoryError QueueRow := do
  let visibilityTimeoutSeconds ← expectI32
    "validated visibility timeout fits in PostgreSQL INTEGER" queue.settings.visibilityTimeoutSeconds
  let maxDeliveryAttempts ← expectI16
    "validated delivery attempt limit fits in PostgreSQL SMALLINT" queue.settings.maxDeliveryAttempts
  let defaultMessageTtlSeconds ← expectI32
    "validated default message TTL fits in PostgreSQL INTEGER" queue.settings.defaultMessageTtlSeconds
  return {
    id := queue.id
    name := queue.name.asStr
    visibilityTimeoutSeconds, maxDeliveryAttempts, defaultMessageTtlSeconds
    createdAt := now
    updatedAt := now }

/-- `INSERT INTO queue … ON CONFLICT (name) DO NOTHING`. -/
def insertQueue (db : Database) (row : QueueRow) :
    Except SqlError (Database × CreateQueueOutcome) := do
  checkRow queueChecks row
  if db.queue.any (·.name = row.name) then
    return (db, .alreadyExists)
  require (¬queueExists db.queue row.id) (.uniqueViolation "queue_pkey")
  return ({ db with queue := db.queue ++ [row] }, .created)

/-- The row after the `COALESCE`s of `update_queue`. -/
def QueueRow.configure (row : QueueRow) (now : Int) (visibilityTimeoutSeconds
    maxDeliveryAttempts defaultMessageTtlSeconds : Option Int) : QueueRow :=
  { row with
    visibilityTimeoutSeconds := visibilityTimeoutSeconds.getD row.visibilityTimeoutSeconds
    maxDeliveryAttempts := maxDeliveryAttempts.getD row.maxDeliveryAttempts
    defaultMessageTtlSeconds := defaultMessageTtlSeconds.getD row.defaultMessageTtlSeconds
    updatedAt := now }

/-- `UPDATE queue … WHERE id = $1 RETURNING …`. -/
def configureQueue (db : Database) (queueId : Uuid) (now : Int) (visibilityTimeoutSeconds
    maxDeliveryAttempts defaultMessageTtlSeconds : Option Int) :
    Except SqlError (Database × Option QueueRow) :=
  match db.queue.find? fun q => q.id = queueId with
  | none => return (db, none)
  | some row => do
    let updated := row.configure now visibilityTimeoutSeconds maxDeliveryAttempts
      defaultMessageTtlSeconds
    checkRow queueChecks updated
    return ({ db with queue := db.queue.map fun q => if q.id = queueId then updated else q },
      some updated)

/-! ## Enqueue -/

/-- The row that `enqueue_message` inserts; the other columns take their defaults. -/
def Message.row (message : Message) (queueId : Uuid) (effectiveTtlSeconds : UInt32)
    (enqueueOrder : Int) (now : Int) : QueueMessage where
  id := message.id
  queueId := queueId
  enqueueOrder := enqueueOrder
  payload := message.payload.toByteArray
  priority := message.priority.rank
  state := .ready
  enqueuedAt := now
  expiresAt := now + seconds effectiveTtlSeconds.toNat
  deliveryAttempts := 0
  receiptHandle := none
  availableAfter := now
  lastDeliveredAt := none

/-- What the enqueue statement does once it has drawn a value from the sequence. -/
def executeEnqueue (db : Database) (row : QueueMessage) : Except SqlError (Database × Unit) := do
  let db ← (Statement.insert [row]).exec db
  return (db, ())

/-! ## Dequeue -/

def dequeueDeadLetterBatchSize : Nat := 8

/-- The order in which the DELETE and the UPDATE trigger of one statement fire. -/
inductive TriggerOrder
  | deleteFirst
  | updateFirst
deriving DecidableEq, Repr

def TriggerOrder.events : TriggerOrder → List TriggerEvent
  | deleteFirst => [.delete, .update]
  | updateFirst => [.update, .delete]

/-- The WHERE clause of `dead_letter_candidates`, for the joined target queue. -/
def isDeadLetterCandidate (queue : QueueRow) (now : Int) (m : QueueMessage) : Bool :=
  queue.id = m.queueId ∧ m.state = .inFlight ∧ m.availableAfter ≤ now ∧ now < m.expiresAt ∧
    queue.maxDeliveryAttempts ≤ m.deliveryAttempts

/-- The WHERE clause of `candidate`; `state IN ('READY', 'IN_FLIGHT')` holds of every row. -/
def isCandidate (queue : QueueRow) (now : Int) (m : QueueMessage) : Bool :=
  queue.id = m.queueId ∧ now < m.expiresAt ∧ m.deliveryAttempts < queue.maxDeliveryAttempts ∧
    (m.state = .ready ∨ m.availableAfter ≤ now)

/-- `ORDER BY available_after ASC, id ASC`. -/
def deadLetterOrder (m : QueueMessage) : Int ×ₗ Uuid := toLex (m.availableAfter, m.id)

/-- `ORDER BY priority DESC, enqueue_order ASC`. -/
def deliveryOrder (m : QueueMessage) : Int ×ₗ Int := toLex (-m.priority, m.enqueueOrder)

def targetQueue (db : Database) (queueId : Uuid) : Option QueueRow :=
  db.queue.find? fun q => q.id = queueId

/-- The rows `dead_letter_candidates` selects, up to the LIMIT. -/
def deadLetterCandidates (db : Database) (queue : QueueRow) (now : Int) :
    List QueueMessage :=
  orderBy deadLetterOrder (db.queueMessage.filter (isDeadLetterCandidate queue now))

/-- The rows `candidate` selects, up to the LIMIT. -/
def deliveryCandidates (db : Database) (queue : QueueRow) (now : Int) :
    List QueueMessage :=
  orderBy deliveryOrder (db.queueMessage.filter (isCandidate queue now))

/-- The SET list of `leased`. -/
def QueueMessage.lease (m : QueueMessage) (receiptHandle : Uuid) (now : Int)
    (visibilityTimeoutSeconds : Int) : QueueMessage :=
  { m with
    state := .inFlight
    receiptHandle := some receiptHandle
    deliveryAttempts := m.deliveryAttempts + 1
    lastDeliveredAt := some now
    availableAfter := now + seconds visibilityTimeoutSeconds }

/-- The row `stored_dead_letters` inserts for a deleted message. -/
def QueueMessage.deadLetter (m : QueueMessage) (now : Int) :
    Except SqlError QueueDeadLetterMessage :=
  match m.lastDeliveredAt with
  | none => .error (.notNullViolation "last_delivered_at")
  | some lastDeliveredAt => .ok {
      id := m.id
      queueId := m.queueId
      payload := m.payload
      priority := m.priority
      enqueuedAt := m.enqueuedAt
      expiresAt := m.expiresAt
      deliveryAttempts := m.deliveryAttempts
      lastDeliveredAt := lastDeliveredAt
      deadLetteredAt := now
      reason := maxDeliveryAttemptsExhausted }

/-- `INSERT INTO queue_dead_letter_message SELECT … FROM dead_lettered`. -/
def insertDeadLetters (db : Database) (deadLettered : List QueueMessage) (now : Int) :
    Except SqlError Database := do
  let rows ← deadLettered.mapM (·.deadLetter now)
  forEach (checkRow queueDeadLetterMessageChecks) rows
  require ((db.queueDeadLetterMessage ++ rows).map (·.id)).Nodup
    (.uniqueViolation "queue_dead_letter_message_pkey")
  require (∀ m ∈ rows, queueExists db.queue m.queueId)
    (.foreignKeyViolation "queue_dead_letter_message_queue_id_fkey")
  return { db with queueDeadLetterMessage := db.queueDeadLetterMessage ++ rows }

/-- `dead_lettered` and `leased` as one statement on `queue_message`. -/
def dequeueStatement (order : TriggerOrder) (receiptHandle : Uuid) (now : Int)
    (visibilityTimeoutSeconds : Int) (exhausted : List Uuid) (candidate : Option Uuid) :
    Statement where
  inserted := []
  change m :=
    if m.id ∈ exhausted then .delete
    else if candidate = some m.id then
      .update (m.lease receiptHandle now visibilityTimeoutSeconds)
    else .keep
  fires := order.events
  fires_once := by cases order <;> decide
  fires_insert h := by simp at h
  fires_update _ _ _ := by cases order <;> decide
  fires_delete _ _ := by cases order <;> decide

structure DequeueMessageRow where
  queueExists : Bool
  queueName : Option String
  id : Option Uuid
  payload : Option ByteArray
  priority : Option Int
  deliveryAttempts : Option Int
  deadLettered : Int

/-- The projection: the sentinel row, left-joined with the leased message. -/
def dequeueMessageRow (queue : Option QueueRow) (leased : Option QueueMessage)
    (deadLettered : Nat) : DequeueMessageRow where
  queueExists := queue.isSome
  queueName := queue.map (·.name)
  id := leased.map (·.id)
  payload := leased.map (·.payload)
  priority := leased.map (·.priority)
  deliveryAttempts := leased.map (·.deliveryAttempts)
  deadLettered := deadLettered

/-- What the dequeue statement does with the rows it has selected and locked. -/
def executeDequeue (order : TriggerOrder) (db : Database) (queue : QueueRow)
    (receiptHandle : Uuid) (now : Int) (exhausted : List Uuid) (candidate : Option Uuid) :
    Except SqlError (Database × DequeueMessageRow) := do
  let statement := dequeueStatement order receiptHandle now queue.visibilityTimeoutSeconds
    exhausted candidate
  let deadLettered := deletedRows statement.change db.queueMessage
  let leased := (updatedRows statement.change db.queueMessage).map Prod.snd
  require (∀ m ∈ leased, m.deliveryAttempts < 2 ^ 15) .numericValueOutOfRange
  let db ← insertDeadLetters db deadLettered now
  let db ← statement.exec db
  return (db, dequeueMessageRow (some queue) leased.head? deadLettered.length)

/-- The decoding of the result row. -/
def decodeDequeue (receiptHandle : Uuid) (row : DequeueMessageRow) :
    Except RepositoryError DequeueMessageOutcome :=
  if !row.queueExists then .ok .queueNotFound
  else match row.queueName with
    | none => .error (.decode "dequeue query omitted the target queue name")
    | some queueName => do
      let deadLettered ← tryFromSigned "dequeue query returned a negative dead-letter count"
        row.deadLettered
      match row.id, row.payload, row.priority, row.deliveryAttempts with
      | none, none, none, none => .ok (.empty queueName deadLettered)
      | some id, some payload, some priorityRank, some deliveryAttempts =>
        match String.fromUTF8? payload with
        | none => .error (.decode "stored queue message payload is not valid UTF-8")
        | some payload =>
          match MessagePriority.fromRank priorityRank with
          | none => .error (.decode
              s!"stored queue message has invalid priority rank {priorityRank}")
          | some priority => do
            let deliveryAttempts ← tryFromSigned
              "stored queue message has a negative delivery attempt count" deliveryAttempts
            return .dequeued id payload priority receiptHandle deliveryAttempts queueName
              deadLettered
      | _, _, _, _ => .error (.decode "dequeue query returned an incomplete leased message")

/-! ## Acknowledge -/

/-- The WHERE clause of `acknowledge_message`. -/
def isAcknowledgeable (queueId messageId receiptHandle : Uuid) (now : Int)
    (m : QueueMessage) : Bool :=
  m.id = messageId ∧ m.queueId = queueId ∧ m.receiptHandle = some receiptHandle ∧
    now < m.availableAfter

/-- Deletes the rows with the given identifiers, by one statement. -/
def deleteStatement (doomed : List Uuid) : Statement := Statement.delete fun m => m.id ∈ doomed

/-- What the acknowledge statement does with the row it has found and locked. -/
def executeAcknowledge (db : Database) (found : List Uuid) :
    Except SqlError (Database × AcknowledgeMessageOutcome) := do
  let statement := deleteStatement found
  let deleted := deletedRows statement.change db.queueMessage
  let db ← statement.exec db
  return (db, if deleted = [] then .unchanged else .acknowledged)

/-! ## Cleaners -/

/-- The WHERE clause of `expired`. -/
def isExpired (now : Int) (m : QueueMessage) : Bool :=
  m.expiresAt ≤ now ∧ (m.state = .ready ∨ (m.state = .inFlight ∧ m.availableAfter ≤ now))

/-- `ORDER BY expires_at ASC, id ASC`. -/
def expiryOrder (m : QueueMessage) : Int ×ₗ Uuid := toLex (m.expiresAt, m.id)

/-- The rows `expired` selects, up to the LIMIT. -/
def expiredCandidates (db : Database) (now : Int) : List QueueMessage :=
  orderBy expiryOrder (db.queueMessage.filter (isExpired now))

/-- `deleted JOIN queue ON queue.id = deleted.queue_id`: the queue's name beside the row. -/
def joinQueueName {α : Type} (queues : List QueueRow) (queueId : α → Uuid) (deleted : List α) :
    List (String × α) :=
  deleted.flatMap fun m => (queues.filter fun q => q.id = queueId m).map fun q => (q.name, m)

/-- A row of the cleanup query: (queue_name, (never_delivered, previously_delivered)). -/
def processExpiredMessagesRows (queues : List QueueRow) (deleted : List QueueMessage) :
    List (String × (Int × Int)) :=
  aggregate Prod.fst (fun group =>
    ((group.countP fun e => e.2.deliveryAttempts = 0 : Nat),
      (group.countP fun e => 0 < e.2.deliveryAttempts : Nat)))
    (joinQueueName queues (·.queueId) deleted)

def decodeExpired (rows : List (String × (Int × Int))) :
    Except RepositoryError ExpiredMessagesCleanupSummary := do
  let perQueue ← rows.mapM fun row => do
    let neverDelivered ← tryFromSigned
      "expired message query returned a negative never-delivered count" row.2.1
    let previouslyDelivered ← tryFromSigned
      "expired message query returned a negative previously-delivered count" row.2.2
    return { queueName := row.1, neverDelivered, previouslyDelivered }
  return ⟨perQueue⟩

/-- What the cleanup statement does with the rows it has selected and locked. -/
def executeExpired (db : Database) (expired : List Uuid) :
    Except SqlError (Database × List (String × (Int × Int))) := do
  let statement := deleteStatement expired
  let deleted := deletedRows statement.change db.queueMessage
  let db ← statement.exec db
  return (db, processExpiredMessagesRows db.queue deleted)

/-- The WHERE clause of the purge's `candidates`. -/
def isPurgeable (retentionSeconds : Int) (now : Int) (m : QueueDeadLetterMessage) : Bool :=
  m.deadLetteredAt ≤ now - seconds retentionSeconds

/-- `ORDER BY dead_lettered_at ASC, id ASC`. -/
def purgeOrder (m : QueueDeadLetterMessage) : Int ×ₗ Uuid := toLex (m.deadLetteredAt, m.id)

/-- The rows the purge's `candidates` selects, up to the LIMIT. -/
def purgeCandidates (db : Database) (retentionSeconds : Int) (now : Int) :
    List QueueDeadLetterMessage :=
  orderBy purgeOrder (db.queueDeadLetterMessage.filter (isPurgeable retentionSeconds now))

/-- A row of the purge query: (queue_name, purged). -/
def purgeDeadLetterMessagesRows (queues : List QueueRow) (deleted : List QueueDeadLetterMessage) :
    List (String × Int) :=
  aggregate Prod.fst (fun group => (group.length : Int)) (joinQueueName queues (·.queueId) deleted)

def decodePurged (rows : List (String × Int)) :
    Except RepositoryError DeadLetterMessagesPurgeSummary := do
  let perQueue ← rows.mapM fun row => do
    let purged ← tryFromSigned "dead-letter purge query returned a negative purged count" row.2
    return { queueName := row.1, purged }
  return ⟨perQueue⟩

/-- What the purge statement does with the rows it has selected and locked. -/
def executePurge (db : Database) (purged : List Uuid) : Database × List (String × Int) :=
  let deleted := db.queueDeadLetterMessage.filter fun m => m.id ∈ purged
  ({ db with queueDeadLetterMessage := db.queueDeadLetterMessage.filter fun m => m.id ∉ purged },
    purgeDeadLetterMessagesRows db.queue deleted)

/-! ## The operations -/

inductive Operation
  | createQueue (queue : Queue)
  | updateQueue (queueId : Uuid) (configuration : QueueConfigurationUpdate)
  | enqueueMessage (queueId : Uuid) (message : Message) (effectiveTtlSeconds : UInt32)
  | dequeueMessage (queueId receiptHandle : Uuid)
  | acknowledgeMessage (queueId messageId receiptHandle : Uuid)
  | processExpiredMessages (batchSize : UInt32)
  | purgeDeadLetterMessages (retentionSeconds : Int) (batchSize : UInt32)

inductive Response
  | createQueue (outcome : CreateQueueOutcome)
  | updateQueue (details : Option QueueDetails)
  | enqueueMessage
  | dequeueMessage (outcome : DequeueMessageOutcome)
  | acknowledgeMessage (outcome : AcknowledgeMessageOutcome)
  | processExpiredMessages (summary : ExpiredMessagesCleanupSummary)
  | purgeDeadLetterMessages (summary : DeadLetterMessagesPurgeSummary)
  | failed (error : RepositoryError)
deriving DecidableEq, Repr

/-- The response for a decoded result. -/
def respond {α : Type} (response : α → Response) : Except RepositoryError α → Response
  | .ok a => response a
  | .error e => .failed e

/-- A statement's result and the decoding of it; a failed statement leaves `db`. -/
def settle {α : Type} (db : Database) (decode : α → Response) :
    Except SqlError (Database × α) → Database × Response
  | .ok (db', a) => (db', decode a)
  | .error e => (db, .failed (.sql e))

def createQueue (db : Database) (now : Int) (queue : Queue) : Database × Response :=
  match queue.row now with
  | .error e => (db, .failed e)
  | .ok row => settle db .createQueue (insertQueue db row)

/-- The bound parameters of `update_queue`: an option left out stays out. -/
def QueueConfigurationUpdate.parameters (configuration : QueueConfigurationUpdate) :
    Except RepositoryError (Option Int × Option Int × Option Int) := do
  let visibilityTimeoutSeconds ← configuration.visibilityTimeoutSeconds.mapM
    (expectI32 "validated visibility timeout fits PostgreSQL INTEGER")
  let maxDeliveryAttempts ← configuration.maxDeliveryAttempts.mapM
    (expectI16 "validated delivery attempt limit fits PostgreSQL SMALLINT")
  let defaultMessageTtlSeconds ← configuration.defaultMessageTtlSeconds.mapM
    (expectI32 "validated message TTL fits PostgreSQL INTEGER")
  return (visibilityTimeoutSeconds, maxDeliveryAttempts, defaultMessageTtlSeconds)

def updateQueue (db : Database) (now : Int) (queueId : Uuid)
    (configuration : QueueConfigurationUpdate) : Database × Response :=
  match configuration.parameters with
  | .error e => (db, .failed e)
  | .ok (visibilityTimeoutSeconds, maxDeliveryAttempts, defaultMessageTtlSeconds) =>
    settle db (fun row => respond .updateQueue (row.mapM queueDetailsFromRow))
      (configureQueue db queueId now visibilityTimeoutSeconds maxDeliveryAttempts
        defaultMessageTtlSeconds)

def enqueueMessage (db : Database) (now : Int) (queueId : Uuid) (message : Message)
    (effectiveTtlSeconds : UInt32) : Database × Response :=
  let row := message.row queueId effectiveTtlSeconds db.enqueueOrderSequence now
  let drawn := { db with enqueueOrderSequence := db.enqueueOrderSequence + 1 }
  settle drawn (fun () => .enqueueMessage) (executeEnqueue drawn row)

def dequeueMessage (order : TriggerOrder) (db : Database) (now : Int)
    (queueId receiptHandle : Uuid) : Database × Response :=
  match targetQueue db queueId with
  | none => (db, respond .dequeueMessage (decodeDequeue receiptHandle (dequeueMessageRow none none 0)))
  | some queue =>
    let exhausted := (deadLetterCandidates db queue now).take dequeueDeadLetterBatchSize
    let candidate := (deliveryCandidates db queue now).head?
    settle db (fun row => respond .dequeueMessage (decodeDequeue receiptHandle row))
      (executeDequeue order db queue receiptHandle now (exhausted.map (·.id))
        (candidate.map (·.id)))

def acknowledgeMessage (db : Database) (now : Int)
    (queueId messageId receiptHandle : Uuid) : Database × Response :=
  let found := db.queueMessage.filter (isAcknowledgeable queueId messageId receiptHandle now)
  settle db .acknowledgeMessage (executeAcknowledge db (found.map (·.id)))

def processExpiredMessages (db : Database) (now : Int) (batchSize : UInt32) :
    Database × Response :=
  let expired := (expiredCandidates db now).take batchSize.toNat
  settle db (fun rows => respond .processExpiredMessages (decodeExpired rows))
    (executeExpired db (expired.map (·.id)))

def purgeDeadLetterMessages (db : Database) (now : Int) (retentionSeconds : Int)
    (batchSize : UInt32) : Database × Response :=
  let candidates := (purgeCandidates db retentionSeconds now).take batchSize.toNat
  let (db', rows) := executePurge db (candidates.map (·.id))
  (db', respond .purgeDeadLetterMessages (decodePurged rows))

/-- One operation, at one time. -/
def Operation.run (order : TriggerOrder) (db : Database) (now : Int) :
    Operation → Database × Response
  | createQueue queue => Retsu.createQueue db now queue
  | updateQueue queueId configuration => Retsu.updateQueue db now queueId configuration
  | enqueueMessage queueId message effectiveTtlSeconds =>
    Retsu.enqueueMessage db now queueId message effectiveTtlSeconds
  | dequeueMessage queueId receiptHandle =>
    Retsu.dequeueMessage order db now queueId receiptHandle
  | acknowledgeMessage queueId messageId receiptHandle =>
    Retsu.acknowledgeMessage db now queueId messageId receiptHandle
  | processExpiredMessages batchSize => Retsu.processExpiredMessages db now batchSize
  | purgeDeadLetterMessages retentionSeconds batchSize =>
    Retsu.purgeDeadLetterMessages db now retentionSeconds batchSize

end Retsu
