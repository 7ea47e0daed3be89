/-
  The use cases, await by await: `modules/queue/application`, and around it the metrics that
  `QueueModule` records (`modules/queue/mod.rs`).

  A use case is a program that asks the repository.  What lies between two of its awaits runs in
  one go, so what a use case records after its last answer belongs to its result: no interleaving
  and no dropped request comes between the answer and the metrics.  The identifiers that the code
  draws on the way are arguments.
-/
import Retsu.Concurrency.Program
import Retsu.Application
import Retsu.QueueMetadata

namespace Retsu

open Concurrency

/-! ## The answers of an operation -/

/-- What an operation of `QueueRepository` returns, unless it fails. -/
abbrev Operation.Result : Operation → Type
  | createQueue _ => CreateQueueOutcome
  | updateQueue _ _ => Option QueueDetails
  | enqueueMessage _ _ _ => Unit
  | dequeueMessage _ _ => DequeueMessageOutcome
  | acknowledgeMessage _ _ _ => AcknowledgeMessageOutcome
  | processExpiredMessages _ => ExpiredMessagesCleanupSummary
  | purgeDeadLetterMessages _ _ => DeadLetterMessagesPurgeSummary

def Operation.respond : (op : Operation) → op.Result → Response
  | createQueue _ => .createQueue
  | updateQueue _ _ => .updateQueue
  | enqueueMessage _ _ _ => fun _ => .enqueueMessage
  | dequeueMessage _ _ => .dequeueMessage
  | acknowledgeMessage _ _ _ => .acknowledgeMessage
  | processExpiredMessages _ => .processExpiredMessages
  | purgeDeadLetterMessages _ _ => .purgeDeadLetterMessages

/-- The result in a response; only a response to another operation has none. -/
def Operation.result? : (op : Operation) → Response → Option (Except RepositoryError op.Result)
  | _, .failed error => some (.error error)
  | createQueue _, .createQueue outcome => some (.ok outcome)
  | updateQueue _ _, .updateQueue details => some (.ok details)
  | enqueueMessage _ _ _, .enqueueMessage => some (.ok ())
  | dequeueMessage _ _, .dequeueMessage outcome => some (.ok outcome)
  | acknowledgeMessage _ _ _, .acknowledgeMessage outcome => some (.ok outcome)
  | processExpiredMessages _, .processExpiredMessages summary => some (.ok summary)
  | purgeDeadLetterMessages _ _, .purgeDeadLetterMessages summary => some (.ok summary)
  | _, _ => none

/-- What is read from a response is what it was made from. -/
theorem Operation.result?_eq_ok {op : Operation} {response : Response} {result : op.Result} :
    op.result? response = some (.ok result) ↔ response = op.respond result := by
  constructor
  · intro h
    cases op <;> cases response <;> simp_all [Operation.result?, Operation.respond]
  · rintro rfl
    cases op <;> rfl

namespace UseCases

/-! ## Asking the repository -/

inductive Query
  | queueName (queueId : Uuid)
  | queueDetails (queueId : Uuid)
  | run (op : Operation)

abbrev Query.Reply : Query → Type
  | queueName _ => Option String
  | queueDetails _ => Option QueueDetails
  | run op => op.Result

abbrev Answer (q : Query) := Except MetadataError q.Reply

abbrev Awaiting := Program Query Answer

/-- `repository.….await.map_err(…)?`. -/
def request {ε : Type} (q : Query) (mapErr : MetadataError → ε) : ExceptT ε Awaiting q.Reply :=
  ExceptT.mk do
    let answer ← Program.ask q
    return answer.mapError mapErr

/-! ## Commands -/

structure CreateQueueCommand where
  name : String
  visibilityTimeoutSeconds : Option UInt32
  maxDeliveryAttempts : Option UInt16
  defaultMessageTtlSeconds : Option UInt32
deriving DecidableEq, Repr

structure UpdateQueueCommand where
  queueId : Uuid
  visibilityTimeoutSeconds : Option UInt32
  maxDeliveryAttempts : Option UInt16
  defaultMessageTtlSeconds : Option UInt32
deriving DecidableEq, Repr

structure DequeueMessageCommand where
  queueId : Uuid
deriving DecidableEq, Repr

structure AcknowledgeMessageCommand where
  queueId : Uuid
  messageId : Uuid
  receiptHandle : Uuid
deriving DecidableEq, Repr

structure AcknowledgedMessage where
  queueName : String
deriving DecidableEq, Repr

/-! ## Errors -/

inductive CreateQueueError
  | invalidName (error : QueueNameError)
  | invalidSettings (error : QueueSettingsError)
  | alreadyExists
  | persistence (error : MetadataError)
deriving DecidableEq, Repr

/-- `impl From<QueueValidationError> for CreateQueueError`. -/
def CreateQueueError.ofValidation : QueueValidationError → CreateQueueError
  | .invalidName error => invalidName error
  | .invalidSettings error => invalidSettings error

inductive UpdateQueueError
  | noConfigurationChanges
  | invalidSettings (error : QueueSettingsError)
  | queueNotFound
  | persistence (error : MetadataError)
deriving DecidableEq, Repr

inductive EnqueueMessageError
  | invalidMessage (error : MessageValidationError)
  | queueNotFound
  | persistence (error : MetadataError)
deriving DecidableEq, Repr

inductive DequeueMessageError
  | queueNotFound
  | persistence (error : MetadataError)
deriving DecidableEq, Repr

inductive AcknowledgeMessageError
  | queueNotFound
  | persistence (error : MetadataError)
deriving DecidableEq, Repr

inductive ProcessExpiredMessagesError
  | persistence (error : MetadataError)
deriving DecidableEq, Repr

inductive PurgeDeadLetterMessagesError
  | retentionOverflow
  | persistence (error : MetadataError)
deriving DecidableEq, Repr

/-! ## The use cases -/

def executeCreateQueue (id : Uuid) (command : CreateQueueCommand) :
    ExceptT CreateQueueError Awaiting QueueDetails := do
  let queue ← MonadExcept.ofExcept <| (Queue.new id command.name command.visibilityTimeoutSeconds
    command.maxDeliveryAttempts command.defaultMessageTtlSeconds).mapError .ofValidation
  match ← request (.run (.createQueue queue)) CreateQueueError.persistence with
  | .created => pure ()
  | .alreadyExists => throw .alreadyExists
  return queue.details

def executeUpdateQueue (command : UpdateQueueCommand) :
    ExceptT UpdateQueueError Awaiting QueueDetails := do
  if command.visibilityTimeoutSeconds.isNone && command.maxDeliveryAttempts.isNone &&
      command.defaultMessageTtlSeconds.isNone then
    throw .noConfigurationChanges
  let configuration ← MonadExcept.ofExcept <| (QueueConfigurationUpdate.new
    command.visibilityTimeoutSeconds command.maxDeliveryAttempts
    command.defaultMessageTtlSeconds).mapError .invalidSettings
  let updated ← request (.run (.updateQueue command.queueId configuration)) .persistence
  updated.getDM (throw .queueNotFound)

def executeEnqueueMessage (id : Uuid) (command : EnqueueMessageCommand) :
    ExceptT EnqueueMessageError Awaiting EnqueuedMessage := do
  let message ← MonadExcept.ofExcept <| (Message.new id command.payload command.priority
    command.ttlSeconds).mapError .invalidMessage
  let details ← request (.queueDetails command.queueId) EnqueueMessageError.persistence
  let queue ← details.getDM (throw .queueNotFound)
  let effectiveTtlSeconds := message.ttlSeconds.getD queue.defaultMessageTtlSeconds
  request (.run (.enqueueMessage command.queueId message effectiveTtlSeconds)) .persistence
  return { id := message.id, queueName := queue.name, priority := message.priority }

def executeDequeueMessage (receiptHandle : Uuid) (command : DequeueMessageCommand) :
    ExceptT DequeueMessageError Awaiting DequeueMessageResult := do
  match ← request (.run (.dequeueMessage command.queueId receiptHandle))
    DequeueMessageError.persistence with
  | .dequeued id payload priority receiptHandle deliveryAttempts queueName deadLettered =>
    return {
      message := some { id, payload, priority, receiptHandle, deliveryAttempts }
      queueName, deadLettered }
  | .empty queueName deadLettered => return { message := none, queueName, deadLettered }
  | .queueNotFound => throw .queueNotFound

def executeAcknowledgeMessage (command : AcknowledgeMessageCommand) :
    ExceptT AcknowledgeMessageError Awaiting (Option AcknowledgedMessage) := do
  let found ← request (.queueName command.queueId) AcknowledgeMessageError.persistence
  let queueName ← found.getDM (throw .queueNotFound)
  match ← request (.run (.acknowledgeMessage command.queueId command.messageId
    command.receiptHandle)) AcknowledgeMessageError.persistence with
  | .acknowledged => return some { queueName }
  | .unchanged => return none

def executeProcessExpiredMessages (batchSize : UInt32) :
    ExceptT ProcessExpiredMessagesError Awaiting ExpiredMessagesCleanupSummary :=
  request (.run (.processExpiredMessages batchSize)) .persistence

/-- `retention` is `Duration::as_secs`. -/
def executePurgeDeadLetterMessages (retention : UInt64) (batchSize : UInt32) :
    ExceptT PurgeDeadLetterMessagesError Awaiting DeadLetterMessagesPurgeSummary := do
  unless retention.toNat < 2 ^ 63 do
    throw .retentionOverflow
  request (.run (.purgeDeadLetterMessages retention.toNat batchSize)) .persistence

/-! ## How the use cases end -/

/-- What the repository has been asked, with its answers. -/
abbrev Exchanged := List (Program.Exchange Query Answer)

/-- No operation has been run, not even one that failed. -/
def Exchanged.NothingRun (past : Exchanged) : Prop := ∀ op answer, ⟨.run op, answer⟩ ∉ past

/-- What a use case may ask: it runs one operation at most, and asks nothing after that. -/
def Asks (past : Exchanged) (_ : Query) : Prop := past.NothingRun

theorem asks_first (q : Query) : Asks [] q := fun _ _ h => by simp at h

/-- A look-up may come before the operation. -/
theorem asks_second {q q' : Query} {answer : Answer q} (h : ∀ op, q ≠ .run op) :
    Asks ([] ++ [⟨q, answer⟩]) q' := by
  intro op answer' hmem
  rw [List.nil_append, List.mem_singleton, Sigma.mk.injEq] at hmem
  exact h op hmem.1.symm

inductive CreateQueueEnds (id : Uuid) (command : CreateQueueCommand) :
    Exchanged → Except CreateQueueError QueueDetails → Prop
  | invalid {e : QueueValidationError}
      (hnew : Queue.new id command.name command.visibilityTimeoutSeconds
        command.maxDeliveryAttempts command.defaultMessageTtlSeconds = .error e) :
      CreateQueueEnds id command [] (.error (.ofValidation e))
  | failed {queue : Queue} {e : MetadataError} :
      CreateQueueEnds id command [⟨.run (.createQueue queue), .error e⟩] (.error (.persistence e))
  | alreadyExists {queue : Queue}
      (hnew : Queue.new id command.name command.visibilityTimeoutSeconds
        command.maxDeliveryAttempts command.defaultMessageTtlSeconds = .ok queue) :
      CreateQueueEnds id command [⟨.run (.createQueue queue), .ok .alreadyExists⟩]
        (.error .alreadyExists)
  | created {queue : Queue}
      (hnew : Queue.new id command.name command.visibilityTimeoutSeconds
        command.maxDeliveryAttempts command.defaultMessageTtlSeconds = .ok queue) :
      CreateQueueEnds id command [⟨.run (.createQueue queue), .ok .created⟩] (.ok queue.details)

theorem executeCreateQueue_conforms (id : Uuid) (command : CreateQueueCommand) :
    (executeCreateQueue id command).run.Conforms Asks (CreateQueueEnds id command) [] := by
  rw [executeCreateQueue]
  cases hnew : Queue.new id command.name command.visibilityTimeoutSeconds
      command.maxDeliveryAttempts command.defaultMessageTtlSeconds with
  | error e => exact CreateQueueEnds.invalid hnew
  | ok queue =>
    refine Program.conforms_await.mpr ⟨asks_first _, fun answer => ?_⟩
    rcases answer with e | outcome
    · exact CreateQueueEnds.failed
    · cases outcome with
      | created => exact CreateQueueEnds.created hnew
      | alreadyExists => exact CreateQueueEnds.alreadyExists hnew

inductive UpdateQueueEnds (command : UpdateQueueCommand) :
    Exchanged → Except UpdateQueueError QueueDetails → Prop
  | noChanges : UpdateQueueEnds command [] (.error .noConfigurationChanges)
  | invalid {e : QueueSettingsError}
      (hnew : QueueConfigurationUpdate.new command.visibilityTimeoutSeconds
        command.maxDeliveryAttempts command.defaultMessageTtlSeconds = .error e) :
      UpdateQueueEnds command [] (.error (.invalidSettings e))
  | failed {configuration : QueueConfigurationUpdate} {e : MetadataError} :
      UpdateQueueEnds command [⟨.run (.updateQueue command.queueId configuration), .error e⟩]
        (.error (.persistence e))
  | notFound {configuration : QueueConfigurationUpdate} :
      UpdateQueueEnds command [⟨.run (.updateQueue command.queueId configuration), .ok none⟩]
        (.error .queueNotFound)
  | updated {configuration : QueueConfigurationUpdate} {details : QueueDetails}
      (hnew : QueueConfigurationUpdate.new command.visibilityTimeoutSeconds
        command.maxDeliveryAttempts command.defaultMessageTtlSeconds = .ok configuration) :
      UpdateQueueEnds command
        [⟨.run (.updateQueue command.queueId configuration), .ok (some details)⟩] (.ok details)

theorem executeUpdateQueue_conforms (command : UpdateQueueCommand) :
    (executeUpdateQueue command).run.Conforms Asks (UpdateQueueEnds command) [] := by
  rw [executeUpdateQueue]
  split
  · exact UpdateQueueEnds.noChanges
  · cases hnew : QueueConfigurationUpdate.new command.visibilityTimeoutSeconds
        command.maxDeliveryAttempts command.defaultMessageTtlSeconds with
    | error e => exact UpdateQueueEnds.invalid hnew
    | ok configuration =>
      refine Program.conforms_await.mpr ⟨asks_first _, fun answer => ?_⟩
      rcases answer with e | _ | details
      · exact UpdateQueueEnds.failed
      · exact UpdateQueueEnds.notFound
      · exact UpdateQueueEnds.updated hnew

inductive EnqueueMessageEnds (id : Uuid) (command : EnqueueMessageCommand) :
    Exchanged → Except EnqueueMessageError EnqueuedMessage → Prop
  | invalid {e : MessageValidationError}
      (hnew : Message.new id command.payload command.priority command.ttlSeconds = .error e) :
      EnqueueMessageEnds id command [] (.error (.invalidMessage e))
  | unavailable {e : MetadataError} :
      EnqueueMessageEnds id command [⟨.queueDetails command.queueId, .error e⟩]
        (.error (.persistence e))
  | notFound :
      EnqueueMessageEnds id command [⟨.queueDetails command.queueId, .ok none⟩]
        (.error .queueNotFound)
  | failed {message : Message} {queue : QueueDetails} {e : MetadataError} :
      EnqueueMessageEnds id command
        [⟨.queueDetails command.queueId, .ok (some queue)⟩,
          ⟨.run (.enqueueMessage command.queueId message
            (message.ttlSeconds.getD queue.defaultMessageTtlSeconds)), .error e⟩]
        (.error (.persistence e))
  | enqueued {message : Message} {queue : QueueDetails}
      (hnew : Message.new id command.payload command.priority command.ttlSeconds = .ok message) :
      EnqueueMessageEnds id command
        [⟨.queueDetails command.queueId, .ok (some queue)⟩,
          ⟨.run (.enqueueMessage command.queueId message
            (message.ttlSeconds.getD queue.defaultMessageTtlSeconds)), .ok ()⟩]
        (.ok ⟨message.id, queue.name, message.priority⟩)

theorem executeEnqueueMessage_conforms (id : Uuid) (command : EnqueueMessageCommand) :
    (executeEnqueueMessage id command).run.Conforms Asks (EnqueueMessageEnds id command) [] := by
  rw [executeEnqueueMessage]
  cases hnew : Message.new id command.payload command.priority command.ttlSeconds with
  | error e => exact EnqueueMessageEnds.invalid hnew
  | ok message =>
    refine Program.conforms_await.mpr ⟨asks_first _, fun answer => ?_⟩
    rcases answer with e | _ | queue
    · exact EnqueueMessageEnds.unavailable
    · exact EnqueueMessageEnds.notFound
    · refine Program.conforms_await.mpr ⟨asks_second (by simp), fun answer => ?_⟩
      cases answer with
      | error e => exact EnqueueMessageEnds.failed
      | ok => exact EnqueueMessageEnds.enqueued hnew

inductive DequeueMessageEnds (receiptHandle : Uuid) (command : DequeueMessageCommand) :
    Exchanged → Except DequeueMessageError DequeueMessageResult → Prop
  | failed {e : MetadataError} :
      DequeueMessageEnds receiptHandle command
        [⟨.run (.dequeueMessage command.queueId receiptHandle), .error e⟩] (.error (.persistence e))
  | notFound :
      DequeueMessageEnds receiptHandle command
        [⟨.run (.dequeueMessage command.queueId receiptHandle), .ok .queueNotFound⟩]
        (.error .queueNotFound)
  | empty {queueName : String} {deadLettered : Nat} :
      DequeueMessageEnds receiptHandle command
        [⟨.run (.dequeueMessage command.queueId receiptHandle),
          .ok (.empty queueName deadLettered)⟩] (.ok ⟨none, queueName, deadLettered⟩)
  | dequeued {id handle : Uuid} {payload queueName : String} {priority : MessagePriority}
      {deliveryAttempts deadLettered : Nat} :
      DequeueMessageEnds receiptHandle command
        [⟨.run (.dequeueMessage command.queueId receiptHandle),
          .ok (.dequeued id payload priority handle deliveryAttempts queueName deadLettered)⟩]
        (.ok ⟨some ⟨id, payload, priority, handle, deliveryAttempts⟩, queueName, deadLettered⟩)

theorem executeDequeueMessage_conforms (receiptHandle : Uuid) (command : DequeueMessageCommand) :
    (executeDequeueMessage receiptHandle command).run.Conforms Asks
      (DequeueMessageEnds receiptHandle command) [] := by
  refine Program.conforms_await.mpr ⟨asks_first _, fun answer => ?_⟩
  rcases answer with e | outcome
  · exact DequeueMessageEnds.failed
  · cases outcome with
    | dequeued => exact DequeueMessageEnds.dequeued
    | empty => exact DequeueMessageEnds.empty
    | queueNotFound => exact DequeueMessageEnds.notFound

inductive AcknowledgeMessageEnds (command : AcknowledgeMessageCommand) :
    Exchanged → Except AcknowledgeMessageError (Option AcknowledgedMessage) → Prop
  | unavailable {e : MetadataError} :
      AcknowledgeMessageEnds command [⟨.queueName command.queueId, .error e⟩]
        (.error (.persistence e))
  | notFound :
      AcknowledgeMessageEnds command [⟨.queueName command.queueId, .ok none⟩]
        (.error .queueNotFound)
  | failed {queueName : String} {e : MetadataError} :
      AcknowledgeMessageEnds command
        [⟨.queueName command.queueId, .ok (some queueName)⟩,
          ⟨.run (.acknowledgeMessage command.queueId command.messageId command.receiptHandle),
            .error e⟩] (.error (.persistence e))
  | acknowledged {queueName : String} :
      AcknowledgeMessageEnds command
        [⟨.queueName command.queueId, .ok (some queueName)⟩,
          ⟨.run (.acknowledgeMessage command.queueId command.messageId command.receiptHandle),
            .ok .acknowledged⟩] (.ok (some ⟨queueName⟩))
  | unchanged {queueName : String} :
      AcknowledgeMessageEnds command
        [⟨.queueName command.queueId, .ok (some queueName)⟩,
          ⟨.run (.acknowledgeMessage command.queueId command.messageId command.receiptHandle),
            .ok .unchanged⟩] (.ok none)

theorem executeAcknowledgeMessage_conforms (command : AcknowledgeMessageCommand) :
    (executeAcknowledgeMessage command).run.Conforms Asks (AcknowledgeMessageEnds command) [] := by
  refine Program.conforms_await.mpr ⟨asks_first _, fun answer => ?_⟩
  rcases answer with e | _ | queueName
  · exact AcknowledgeMessageEnds.unavailable
  · exact AcknowledgeMessageEnds.notFound
  · refine Program.conforms_await.mpr ⟨asks_second (by simp), fun answer => ?_⟩
    rcases answer with e | outcome
    · exact AcknowledgeMessageEnds.failed
    · cases outcome with
      | acknowledged => exact AcknowledgeMessageEnds.acknowledged
      | unchanged => exact AcknowledgeMessageEnds.unchanged

inductive ProcessExpiredMessagesEnds (batchSize : UInt32) : Exchanged →
    Except ProcessExpiredMessagesError ExpiredMessagesCleanupSummary → Prop
  | failed {e : MetadataError} :
      ProcessExpiredMessagesEnds batchSize [⟨.run (.processExpiredMessages batchSize), .error e⟩]
        (.error (.persistence e))
  | processed {summary : ExpiredMessagesCleanupSummary} :
      ProcessExpiredMessagesEnds batchSize
        [⟨.run (.processExpiredMessages batchSize), .ok summary⟩] (.ok summary)

theorem executeProcessExpiredMessages_conforms (batchSize : UInt32) :
    (executeProcessExpiredMessages batchSize).run.Conforms Asks
      (ProcessExpiredMessagesEnds batchSize) [] := by
  refine Program.conforms_await.mpr ⟨asks_first _, fun answer => ?_⟩
  cases answer with
  | error e => exact ProcessExpiredMessagesEnds.failed
  | ok summary => exact ProcessExpiredMessagesEnds.processed

inductive PurgeDeadLetterMessagesEnds (retention : UInt64) (batchSize : UInt32) : Exchanged →
    Except PurgeDeadLetterMessagesError DeadLetterMessagesPurgeSummary → Prop
  | overflow (h : 2 ^ 63 ≤ retention.toNat) :
      PurgeDeadLetterMessagesEnds retention batchSize [] (.error .retentionOverflow)
  | failed {e : MetadataError} :
      PurgeDeadLetterMessagesEnds retention batchSize
        [⟨.run (.purgeDeadLetterMessages retention.toNat batchSize), .error e⟩]
        (.error (.persistence e))
  | purged {summary : DeadLetterMessagesPurgeSummary} :
      PurgeDeadLetterMessagesEnds retention batchSize
        [⟨.run (.purgeDeadLetterMessages retention.toNat batchSize), .ok summary⟩] (.ok summary)

theorem executePurgeDeadLetterMessages_conforms (retention : UInt64) (batchSize : UInt32) :
    (executePurgeDeadLetterMessages retention batchSize).run.Conforms Asks
      (PurgeDeadLetterMessagesEnds retention batchSize) [] := by
  rw [executePurgeDeadLetterMessages]
  split
  · refine Program.conforms_await.mpr ⟨asks_first _, fun answer => ?_⟩
    cases answer with
    | error e => exact PurgeDeadLetterMessagesEnds.failed
    | ok summary => exact PurgeDeadLetterMessagesEnds.purged
  · rename_i hlarge
    exact PurgeDeadLetterMessagesEnds.overflow (Nat.not_lt.mp hlarge)

/-! ## What is recorded -/

/-- The counters of `QueueInstrumentation`. -/
inductive Instrument
  | messagesEnqueued
  | messagesAcknowledged
  | messagesDeadLettered
  | messagesExpired
  | messagesPurged
deriving DecidableEq, Repr

def Instrument.name : Instrument → String
  | messagesEnqueued => "queue.messages.enqueued"
  | messagesAcknowledged => "queue.messages.acknowledged"
  | messagesDeadLettered => "queue.messages.dead_lettered"
  | messagesExpired => "queue.messages.expired"
  | messagesPurged => "queue.dead_letter.messages.purged"

/-- One series of a counter: the instrument and its attributes. -/
structure Series where
  instrument : Instrument
  attributes : List (String × String)
deriving DecidableEq, Repr

/-- `Counter::add`: what is added to which series. -/
abbrev Measurement := Series × Nat

def messageEnqueued (queueName priority : String) : List Measurement :=
  [(⟨.messagesEnqueued, [("queue.name", queueName), ("message.priority", priority)]⟩, 1)]

def messageAcknowledged (queueName : String) : List Measurement :=
  [(⟨.messagesAcknowledged, [("queue.name", queueName)]⟩, 1)]

/-- A count of zero is not recorded. -/
def addUnlessZero (series : Series) (count : Nat) : List Measurement :=
  if count = 0 then [] else [(series, count)]

def messagesDeadLettered (queueName : String) (count : Nat) : List Measurement :=
  addUnlessZero ⟨.messagesDeadLettered, [("queue.name", queueName)]⟩ count

def messagesExpired (queueName deliveryHistory : String) (count : Nat) : List Measurement :=
  addUnlessZero ⟨.messagesExpired,
    [("queue.name", queueName), ("message.delivery_history", deliveryHistory)]⟩ count

def messagesPurged (queueName : String) (count : Nat) : List Measurement :=
  addUnlessZero ⟨.messagesPurged, [("queue.name", queueName)]⟩ count

/-! ## `QueueModule` -/

/-- A result and what has been recorded by then. -/
abbrev Instrumented (ε α : Type) := Awaiting (Except ε α × List Measurement)

/-- What is recorded of a result: nothing of an error. -/
def recordedOf {ε α : Type} (record : α → List Measurement) : Except ε α → List Measurement
  | .ok a => record a
  | .error _ => []

/-- `let a = execute(…).await?; …; Ok(…)`, with what is recorded in between. -/
def instrumented {ε α β : Type} (execute : ExceptT ε Awaiting α) (record : α → List Measurement)
    (finish : α → β) : Awaiting (Except ε β × List Measurement) := do
  let result ← execute.run
  return (result.map finish, recordedOf record result)

def expiredMeasurements (summary : ExpiredMessagesCleanupSummary) : List Measurement :=
  summary.perQueue.flatMap fun queue =>
    messagesExpired queue.queueName "never_delivered" queue.neverDelivered ++
      messagesExpired queue.queueName "previously_delivered" queue.previouslyDelivered

def purgedMeasurements (summary : DeadLetterMessagesPurgeSummary) : List Measurement :=
  summary.perQueue.flatMap fun queue => messagesPurged queue.queueName queue.purged

namespace QueueModule

def createQueue (id : Uuid) (command : CreateQueueCommand) :
    Instrumented CreateQueueError QueueDetails :=
  instrumented (executeCreateQueue id command) (fun _ => []) fun queue => queue

def updateQueue (command : UpdateQueueCommand) : Instrumented UpdateQueueError QueueDetails :=
  instrumented (executeUpdateQueue command) (fun _ => []) fun queue => queue

def enqueueMessage (id : Uuid) (command : EnqueueMessageCommand) :
    Instrumented EnqueueMessageError EnqueuedMessage :=
  instrumented (executeEnqueueMessage id command)
    (fun message => messageEnqueued message.queueName message.priority.asStr)
    fun message => message

def dequeueMessage (receiptHandle : Uuid) (command : DequeueMessageCommand) :
    Instrumented DequeueMessageError (Option DequeuedMessage) :=
  instrumented (executeDequeueMessage receiptHandle command)
    (fun result => messagesDeadLettered result.queueName result.deadLettered)
    fun result => result.message

def acknowledgeMessage (command : AcknowledgeMessageCommand) :
    Instrumented AcknowledgeMessageError Unit :=
  instrumented (executeAcknowledgeMessage command)
    (fun message => message.elim [] fun message => messageAcknowledged message.queueName)
    fun _ => ()

def processExpiredMessages (batchSize : UInt32) :
    Instrumented ProcessExpiredMessagesError ExpiredMessagesCleanupSummary :=
  instrumented (executeProcessExpiredMessages batchSize) expiredMeasurements
    fun summary => summary

def purgeDeadLetterMessages (retention : UInt64) (batchSize : UInt32) :
    Instrumented PurgeDeadLetterMessagesError DeadLetterMessagesPurgeSummary :=
  instrumented (executePurgeDeadLetterMessages retention batchSize) purgedMeasurements
    fun summary => summary

end QueueModule

end UseCases

end Retsu
