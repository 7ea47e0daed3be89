/-
  The tasks that the processes run on the repository: API requests and the rounds of the two
  cleaners.

  A task looks a queue up at most once and then runs one operation at most, which is the last thing
  it asks for.  `Task.Ends` says with what outcome and what measurements it ends, in terms of the
  answers it was given.
-/
import Retsu.Api

namespace Retsu

open Concurrency UseCases Api

inductive Task
  /-- `drawn` is the identifier that the handler draws. -/
  | request (api : Api.Request) (drawn : Uuid)
  | processExpiredMessages (batchSize : UInt32)
  | purgeDeadLetterMessages (retention : UInt64) (batchSize : UInt32)

inductive Outcome
  | response (response : HttpResponse)
  | expired (result : Except ProcessExpiredMessagesError ExpiredMessagesCleanupSummary)
  | purged (result : Except PurgeDeadLetterMessagesError DeadLetterMessagesPurgeSummary)

namespace Task

def program : Task → Awaiting (Outcome × List Measurement)
  | .request api drawn => do
    let (response, recorded) ← api.serve drawn
    return (.response response, recorded)
  | .processExpiredMessages batchSize => do
    let (result, recorded) ← QueueModule.processExpiredMessages batchSize
    return (.expired result, recorded)
  | .purgeDeadLetterMessages retention batchSize => do
    let (result, recorded) ← QueueModule.purgeDeadLetterMessages retention batchSize
    return (.purged result, recorded)

/-! ## How tasks end -/

/-- The outcome of a request whose use case has ended. -/
def answer {ε α β : Type} (mapError : ε → ApiError) (finish : α → β) (response : β → HttpResponse)
    (result : Except ε α) : Outcome :=
  .response (toResponse (((result.map finish).map response).mapError mapError))

inductive Ends : Task → Exchanged → Outcome × List Measurement → Prop
  | refused {api : Api.Request} {drawn : Uuid} {e : ApiError}
      (h : api.handler drawn = .error e) :
      Ends (.request api drawn) [] (.response e.errorResponse, [])
  | createQueue {body : CreateQueueRequest} {drawn : Uuid} {past : Exchanged}
      {result : Except CreateQueueError QueueDetails}
      (h : CreateQueueEnds drawn body.intoCommand past result) :
      Ends (.request (.createQueue (.ok body)) drawn) past
        (answer mapCreateQueueError (fun queue => queue)
          (fun queue => .json .created (.queue (.ofDetails queue))) result,
          recordedOf (fun _ => []) result)
  | updateQueue {path : QueuePath} {body : UpdateQueueRequest} {drawn : Uuid} {past : Exchanged}
      {result : Except UpdateQueueError QueueDetails}
      (h : UpdateQueueEnds (body.intoCommand path.queueId) past result) :
      Ends (.request (.updateQueue (.ok path) (.ok body)) drawn) past
        (answer mapUpdateQueueError (fun queue => queue)
          (fun queue => .json .ok (.queue (.ofDetails queue))) result,
          recordedOf (fun _ => []) result)
  | enqueueMessage {path : QueuePath} {body : EnqueueMessageRequest} {drawn : Uuid}
      {past : Exchanged} {result : Except UseCases.EnqueueMessageError EnqueuedMessage}
      (h : EnqueueMessageEnds drawn (body.intoCommand path.queueId) past result) :
      Ends (.request (.enqueueMessage (.ok path) (.ok body)) drawn) past
        (answer mapEnqueueMessageError (fun message => message)
          (fun message => .json .created (.enqueued ⟨message.id⟩)) result,
          recordedOf (fun message => messageEnqueued message.queueName message.priority.asStr)
            result)
  | dequeueMessage {path : QueuePath} {drawn : Uuid} {past : Exchanged}
      {result : Except UseCases.DequeueMessageError DequeueMessageResult}
      (h : DequeueMessageEnds drawn ⟨path.queueId⟩ past result) :
      Ends (.request (.dequeueMessage (.ok path)) drawn) past
        (answer mapDequeueMessageError (·.message)
          (fun message => message.elim .noContent fun message =>
            .json .ok (.dequeued (.ofMessage message))) result,
          recordedOf (fun result => messagesDeadLettered result.queueName result.deadLettered)
            result)
  | acknowledgeMessage {path : MessagePath} {body : AcknowledgeMessageRequest} {drawn : Uuid}
      {past : Exchanged} {result : Except AcknowledgeMessageError (Option AcknowledgedMessage)}
      (h : AcknowledgeMessageEnds (body.intoCommand path) past result) :
      Ends (.request (.acknowledgeMessage (.ok path) (.ok body)) drawn) past
        (answer mapAcknowledgeMessageError (fun _ => ()) (fun _ => .noContent) result,
          recordedOf (fun message => message.elim [] fun message =>
            messageAcknowledged message.queueName) result)
  | processExpiredMessages {batchSize : UInt32} {past : Exchanged}
      {result : Except ProcessExpiredMessagesError ExpiredMessagesCleanupSummary}
      (h : ProcessExpiredMessagesEnds batchSize past result) :
      Ends (.processExpiredMessages batchSize) past
        (.expired (result.map fun summary => summary), recordedOf expiredMeasurements result)
  | purgeDeadLetterMessages {retention : UInt64} {batchSize : UInt32} {past : Exchanged}
      {result : Except PurgeDeadLetterMessagesError DeadLetterMessagesPurgeSummary}
      (h : PurgeDeadLetterMessagesEnds retention batchSize past result) :
      Ends (.purgeDeadLetterMessages retention batchSize) past
        (.purged (result.map fun summary => summary), recordedOf purgedMeasurements result)

variable {api : Api.Request} {drawn : Uuid}

/-- A request that its extractors refuse asks nothing. -/
theorem conforms_of_refused {e : ApiError} (h : api.handler drawn = .error e) :
    (request api drawn).program.Conforms Asks (request api drawn).Ends [] := by
  have hprogram : (request api drawn).program = .done (.response e.errorResponse, []) := by
    rw [program, Request.serve, h]
    rfl
  rw [hprogram]
  exact Ends.refused h

/-- A request that its handler serves keeps to what the use case keeps to. -/
theorem conforms_of_handler {ε α β : Type} {execute : ExceptT ε Awaiting α}
    {record : α → List Measurement} {finish : α → β} {mapError : ε → ApiError}
    {response : β → HttpResponse} {ends : Exchanged → Except ε α → Prop}
    (h : api.handler drawn = .ok (respondWith (instrumented execute record finish) mapError
      response))
    (hexecute : execute.run.Conforms Asks ends [])
    (hends : ∀ past result, ends past result → (request api drawn).Ends past
      (answer mapError finish response result, recordedOf record result)) :
    (request api drawn).program.Conforms Asks (request api drawn).Ends [] := by
  have hprogram : (request api drawn).program =
      ((((execute.run.bind fun result => .done (result.map finish, recordedOf record result)).bind
        fun ended => .done ((ended.1.map response).mapError mapError, ended.2)).bind
        fun ended => .done (toResponse ended.1, ended.2)).bind
        fun ended => .done (.response ended.1, ended.2)) := by
    rw [program, Request.serve, h]
    rfl
  rw [hprogram]
  exact .bind (.bind (.bind (.bind (hexecute.mono hends))))

/-- **What every task keeps to.** -/
theorem conforms (task : Task) : task.program.Conforms Asks task.Ends [] := by
  cases task with
  | request api drawn =>
    cases api with
    | createQueue body =>
      cases body with
      | error e => exact conforms_of_refused rfl
      | ok body =>
        exact conforms_of_handler rfl (executeCreateQueue_conforms drawn body.intoCommand)
          fun _ _ => .createQueue
    | updateQueue path body =>
      rcases path with e | path
      · exact conforms_of_refused rfl
      rcases body with e | body
      · exact conforms_of_refused rfl
      exact conforms_of_handler rfl (executeUpdateQueue_conforms (body.intoCommand path.queueId))
        fun _ _ => .updateQueue
    | enqueueMessage path body =>
      rcases path with e | path
      · exact conforms_of_refused rfl
      rcases body with e | body
      · exact conforms_of_refused rfl
      exact conforms_of_handler rfl
        (executeEnqueueMessage_conforms drawn (body.intoCommand path.queueId))
        fun _ _ => .enqueueMessage
    | dequeueMessage path =>
      rcases path with e | path
      · exact conforms_of_refused rfl
      exact conforms_of_handler rfl (executeDequeueMessage_conforms drawn ⟨path.queueId⟩)
        fun _ _ => .dequeueMessage
    | acknowledgeMessage path body =>
      rcases path with e | path
      · exact conforms_of_refused rfl
      rcases body with e | body
      · exact conforms_of_refused rfl
      exact conforms_of_handler rfl (executeAcknowledgeMessage_conforms (body.intoCommand path))
        fun _ _ => .acknowledgeMessage
    | unknown => exact conforms_of_refused rfl
  | processExpiredMessages batchSize =>
    exact .bind (.bind ((executeProcessExpiredMessages_conforms batchSize).mono
      fun _ _ h => Ends.processExpiredMessages h))
  | purgeDeadLetterMessages retention batchSize =>
    exact .bind (.bind ((executePurgeDeadLetterMessages_conforms retention batchSize).mono
      fun _ _ h => Ends.purgeDeadLetterMessages h))

end Task

end Retsu
