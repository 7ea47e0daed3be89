/-
  The use cases around the repository (`modules/queue/application`): what a client's command
  becomes before the repository is asked, and what its answer becomes afterwards.

  The repository's answers are arguments, so that a use case can be run on top of any of the
  repositories.
-/
import Retsu.Repository

namespace Retsu

open Relational

/-! ## Enqueue -/

structure EnqueueMessageCommand where
  queueId : Uuid
  payload : String
  priority : String
  ttlSeconds : Option UInt32

structure EnqueuedMessage where
  id : Uuid
  queueName : String
  priority : MessagePriority
deriving DecidableEq, Repr

inductive EnqueueMessageError
  | invalidMessage (error : MessageValidationError)
  | queueNotFound
  | persistence (error : RepositoryError)
deriving DecidableEq, Repr

/-- What `enqueue_message::execute` passes on to the repository's `enqueue_message`, after the
    repository's `queue_details` has answered. -/
def EnqueueMessageCommand.effective (command : EnqueueMessageCommand) (id : Uuid)
    (queueDetails : Except RepositoryError (Option QueueDetails)) :
    Except EnqueueMessageError (Message × QueueDetails × UInt32) := do
  let message ← (Message.new id command.payload command.priority command.ttlSeconds).mapError
    .invalidMessage
  match queueDetails with
  | .error e => throw (.persistence e)
  | .ok none => throw .queueNotFound
  | .ok (some queue) =>
    return (message, queue, message.ttlSeconds.getD queue.defaultMessageTtlSeconds)

/-- `enqueue_message::execute`; `enqueue` is the repository's answer to `enqueue_message`. -/
def EnqueueMessageCommand.execute (command : EnqueueMessageCommand) (id : Uuid)
    (queueDetails : Except RepositoryError (Option QueueDetails))
    (enqueue : Message → UInt32 → Except RepositoryError Unit) :
    Except EnqueueMessageError EnqueuedMessage := do
  let (message, queue, effectiveTtlSeconds) ← command.effective id queueDetails
  (enqueue message effectiveTtlSeconds).mapError .persistence
  return { id := message.id, queueName := queue.name, priority := message.priority }

/-- A label that is accepted is that of its priority. -/
theorem MessagePriority.parse_eq_ok {label : String} {priority : MessagePriority} :
    parse label = .ok priority ↔ label = priority.asStr := by
  constructor
  · intro h
    unfold parse at h
    split at h
    · rw [← Except.ok.inj h]
      rfl
    · rw [← Except.ok.inj h]
      rfl
    · rw [← Except.ok.inj h]
      rfl
    · simp at h
  · rintro rfl
    exact parse_asStr priority

/-- The checks of a new message keep what was asked for. -/
theorem Message.new_eq_ok {id : Uuid} {payload label : String} {ttlSeconds : Option UInt32}
    {message : Message} (h : Message.new id payload label ttlSeconds = .ok message) :
    message.id = id ∧ message.payload = payload ∧ label = message.priority.asStr ∧
      message.ttlSeconds = ttlSeconds := by
  rw [Message.new, bind_eq_ok] at h
  obtain ⟨priority, hpriority, h⟩ := h
  split at h
  · rw [pure_eq_ok] at h
    rw [← h]
    exact ⟨rfl, rfl, MessagePriority.parse_eq_ok.mp hpriority, rfl⟩
  · simp [throw, throwThe, MonadExceptOf.throw] at h

/-- An enqueue without a time to live takes the default of the configuration it has read. -/
theorem EnqueueMessageCommand.effective_default {command : EnqueueMessageCommand}
    (hdefault : command.ttlSeconds = none) {id : Uuid} {answer : Option QueueDetails}
    {message : Message} {queue : QueueDetails} {ttl : UInt32}
    (h : command.effective id (.ok answer) = .ok (message, queue, ttl)) :
    answer.map (·.defaultMessageTtlSeconds) = some ttl := by
  obtain ⟨m, hnew, hok⟩ := bind_eq_ok.mp h
  have hm : m.ttlSeconds = none := by
    cases hmessage : Message.new id command.payload command.priority command.ttlSeconds with
    | error e => simp [hmessage, Except.mapError] at hnew
    | ok created =>
      rw [hmessage] at hnew
      obtain rfl := Except.ok.inj hnew
      rw [(Message.new_eq_ok hmessage).2.2.2, hdefault]
  cases answer with
  | none => simp [throw, throwThe, MonadExceptOf.throw] at hok
  | some details =>
    simp only [pure_eq_ok, Prod.mk.injEq] at hok
    obtain ⟨-, -, httl⟩ := hok
    rw [Option.map_some, ← httl, hm, Option.getD_none]

/-! ## Dequeue -/

structure DequeuedMessage where
  id : Uuid
  payload : String
  priority : MessagePriority
  receiptHandle : Uuid
  deliveryAttempts : Nat
deriving DecidableEq, Repr

structure DequeueMessageResult where
  message : Option DequeuedMessage
  queueName : String
  deadLettered : Nat
deriving DecidableEq, Repr

inductive DequeueMessageError
  | queueNotFound
  | persistence (error : RepositoryError)
deriving DecidableEq, Repr

/-- What `dequeue_message::execute` makes of the repository's answer. -/
def DequeueMessageResult.of : Except RepositoryError DequeueMessageOutcome →
    Except DequeueMessageError DequeueMessageResult
  | .error e => .error (.persistence e)
  | .ok (.dequeued id payload priority receiptHandle deliveryAttempts queueName deadLettered) =>
    .ok {
      message := some { id, payload, priority, receiptHandle, deliveryAttempts }
      queueName, deadLettered }
  | .ok (.empty queueName deadLettered) => .ok { message := none, queueName, deadLettered }
  | .ok .queueNotFound => .error .queueNotFound

end Retsu
