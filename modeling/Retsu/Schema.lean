/-
  The tables of the migrations and their constraints.

  Timestamps are whole microseconds, which is the resolution of TIMESTAMPTZ; integer columns
  are integers, and their ranges are what the CHECK constraints say.  A CHECK constraint is
  data (a name and a decidable predicate), so the list of a table's constraints reads like
  its migration and one function, `checkRow`, evaluates all of them.
-/
import Mathlib.Data.Int.Order.Basic
import Mathlib.Data.Prod.Lex
import Mathlib.Order.Fin.Basic
import Retsu.Domain

namespace Retsu

/-- `n * INTERVAL '1 second'`. -/
def seconds (n : Int) : Int := n * 1000000

/-- `INTERVAL 'n days'`, in a session whose days have 86400 seconds. -/
def days (n : Int) : Int := seconds (n * 86400)

/-! ## Errors and constraints -/

inductive SqlError
  | checkViolation (constraint : String)
  | uniqueViolation (constraint : String)
  | foreignKeyViolation (constraint : String)
  | notNullViolation (column : String)
  | numericValueOutOfRange
  /-- `RAISE EXCEPTION` in a trigger function. -/
  | raised (message : String)
deriving DecidableEq, Repr

/-- A named CHECK constraint. -/
structure Check (α : Type) where
  name : String
  holds : α → Bool

/-- The row satisfies every constraint of the list. -/
def Checked {α : Type} (checks : List (Check α)) (row : α) : Prop := ∀ c ∈ checks, c.holds row

instance {α : Type} (checks : List (Check α)) (row : α) : Decidable (Checked checks row) :=
  inferInstanceAs (Decidable (∀ c ∈ checks, c.holds row))

/-- Rejects the row with the first constraint that it violates. -/
def checkRow {α : Type} (checks : List (Check α)) (row : α) : Except SqlError Unit :=
  match checks.find? fun c => !c.holds row with
  | some c => .error (.checkViolation c.name)
  | none => .ok ()

theorem checkRow_eq_ok {α : Type} {checks : List (Check α)} {row : α} :
    checkRow checks row = .ok () ↔ Checked checks row := by
  unfold checkRow Checked
  cases h : checks.find? fun c => !c.holds row with
  | none => simpa [List.find?_eq_none] using h
  | some c =>
    have hc := List.find?_some h
    have hmem := List.mem_of_find?_eq_some h
    simp only [reduceCtorEq, false_iff]
    intro hall
    simp [hall c hmem] at hc

/-- A rejection names a constraint of the table that the row violates. -/
theorem checkRow_eq_error {α : Type} {checks : List (Check α)} {row : α} {e : SqlError}
    (h : checkRow checks row = .error e) :
    ∃ c ∈ checks, e = .checkViolation c.name ∧ ¬c.holds row := by
  unfold checkRow at h
  split at h
  · rename_i c hf
    refine ⟨c, List.mem_of_find?_eq_some hf, ?_, by simpa using List.find?_some hf⟩
    injection h with h
    exact h.symm
  · simp at h

/-! ## Table queue -/

structure QueueRow where
  id : Uuid
  name : String
  visibilityTimeoutSeconds : Int
  maxDeliveryAttempts : Int
  defaultMessageTtlSeconds : Int
  createdAt : Int
  updatedAt : Int
deriving DecidableEq, Repr

/-- `[a-z0-9]`. -/
def isNameEndpoint (c : Char) : Bool := ('a' ≤ c ∧ c ≤ 'z') ∨ ('0' ≤ c ∧ c ≤ '9')

/-- `[a-z0-9._-]`. -/
def isNameCharacter (c : Char) : Bool := isNameEndpoint c ∨ c = '.' ∨ c = '_' ∨ c = '-'

/-- `name ~ '^[a-z0-9]([a-z0-9._-]{0,62}[a-z0-9])?$'`. -/
def matchesNameFormat (name : String) : Bool :=
  match name.toList with
  | [] => false
  | first :: rest =>
    isNameEndpoint first &&
      match rest.getLast? with
      | none => true
      | some last =>
        isNameEndpoint last && rest.dropLast.all isNameCharacter && rest.dropLast.length ≤ 62

def queueChecks : List (Check QueueRow) := [
  ⟨"queue_name_length", fun q => 1 ≤ q.name.utf8ByteSize ∧ q.name.utf8ByteSize ≤ 64⟩,
  ⟨"queue_name_format", fun q => matchesNameFormat q.name⟩,
  ⟨"queue_visibility_timeout_range",
    fun q => 1 ≤ q.visibilityTimeoutSeconds ∧ q.visibilityTimeoutSeconds ≤ 21600⟩,
  ⟨"queue_max_delivery_attempts_range",
    fun q => 1 ≤ q.maxDeliveryAttempts ∧ q.maxDeliveryAttempts ≤ 100⟩,
  ⟨"queue_default_message_ttl_range",
    fun q => 1 ≤ q.defaultMessageTtlSeconds ∧ q.defaultMessageTtlSeconds ≤ 2592000⟩,
  ⟨"queue_updated_at_not_before_created_at", fun q => q.createdAt ≤ q.updatedAt⟩]

/-! ## Table queue_message -/

/-- The values that `queue_message_state_value` allows. -/
inductive MessageState
  | ready
  | inFlight
deriving DecidableEq, Repr

structure QueueMessage where
  id : Uuid
  queueId : Uuid
  enqueueOrder : Int
  payload : ByteArray
  priority : Int
  state : MessageState
  enqueuedAt : Int
  expiresAt : Int
  deliveryAttempts : Int
  receiptHandle : Option Uuid
  availableAfter : Int
  lastDeliveredAt : Option Int
deriving DecidableEq

def queueMessageChecks : List (Check QueueMessage) := [
  ⟨"queue_message_priority_range", fun m => 1 ≤ m.priority ∧ m.priority ≤ 3⟩,
  ⟨"queue_message_delivery_attempts_non_negative", fun m => 0 ≤ m.deliveryAttempts⟩,
  ⟨"queue_message_expiration_after_enqueue",
    fun m => m.enqueuedAt < m.expiresAt ∧ m.expiresAt ≤ m.enqueuedAt + days 30⟩,
  ⟨"queue_message_state_consistency", fun m =>
    (m.state = .ready ∧ m.receiptHandle = none ∧ m.lastDeliveredAt = none ∧
      m.deliveryAttempts = 0) ∨
    (m.state = .inFlight ∧ m.receiptHandle ≠ none ∧ m.lastDeliveredAt ≠ none ∧
      0 < m.deliveryAttempts)⟩,
  ⟨"queue_message_availability_after_enqueue_or_delivery", fun m =>
    match m.lastDeliveredAt with
    | none => m.enqueuedAt ≤ m.availableAfter
    | some delivered => delivered < m.availableAfter⟩,
  ⟨"queue_message_delivery_not_before_enqueue",
    fun m => ∀ delivered ∈ m.lastDeliveredAt, m.enqueuedAt ≤ delivered⟩]

/-! ## Table queue_dead_letter_message -/

structure QueueDeadLetterMessage where
  id : Uuid
  queueId : Uuid
  payload : ByteArray
  priority : Int
  enqueuedAt : Int
  expiresAt : Int
  deliveryAttempts : Int
  lastDeliveredAt : Int
  deadLetteredAt : Int
  reason : String
deriving DecidableEq

/-- The reason every row that `dequeue_message` archives carries. -/
def maxDeliveryAttemptsExhausted : String := "MAX_DELIVERY_ATTEMPTS_EXHAUSTED"

def queueDeadLetterMessageChecks : List (Check QueueDeadLetterMessage) := [
  ⟨"queue_dead_letter_message_priority_range", fun m => 1 ≤ m.priority ∧ m.priority ≤ 3⟩,
  ⟨"queue_dead_letter_message_delivery_attempts_non_negative", fun m => 0 ≤ m.deliveryAttempts⟩,
  ⟨"queue_dead_letter_message_reason_value", fun m => m.reason = maxDeliveryAttemptsExhausted⟩,
  ⟨"queue_dead_letter_message_timestamps_consistent", fun m =>
    m.enqueuedAt ≤ m.lastDeliveredAt ∧ m.enqueuedAt < m.expiresAt ∧
      m.lastDeliveredAt ≤ m.deadLetteredAt⟩]

/-! ## Table queue_priority_state_shard -/

/-- The primary key of a counter row, ordered as the triggers order it. -/
structure ShardKey where
  queueId : Uuid
  priority : Int
  shard : Int
deriving Repr

/-- `ORDER BY queue_id, priority, shard`. -/
def ShardKey.order (k : ShardKey) : Uuid ×ₗ (Int ×ₗ Int) :=
  toLex (k.queueId, toLex (k.priority, k.shard))

theorem ShardKey.order_injective : Function.Injective ShardKey.order := by
  rintro ⟨q, p, s⟩ ⟨q', p', s'⟩ h
  simpa [ShardKey.order] using h

instance : LinearOrder ShardKey := LinearOrder.lift' ShardKey.order ShardKey.order_injective

/-- The pair (ready_count, in_flight_count), and a pair of deltas to it. -/
abbrev StateCounts := Int × Int

structure QueuePriorityStateShard where
  key : ShardKey
  counts : StateCounts
deriving DecidableEq, Repr

abbrev QueuePriorityStateShard.readyCount (s : QueuePriorityStateShard) : Int := s.counts.1

abbrev QueuePriorityStateShard.inFlightCount (s : QueuePriorityStateShard) : Int := s.counts.2

def queuePriorityStateShardChecks : List (Check QueuePriorityStateShard) := [
  ⟨"queue_priority_state_shard_priority_range",
    fun s => 1 ≤ s.key.priority ∧ s.key.priority ≤ 3⟩,
  ⟨"queue_priority_state_shard_number_range", fun s => 0 ≤ s.key.shard ∧ s.key.shard ≤ 31⟩,
  ⟨"queue_priority_state_shard_ready_count_non_negative", fun s => 0 ≤ s.readyCount⟩,
  ⟨"queue_priority_state_shard_in_flight_count_non_negative", fun s => 0 ≤ s.inFlightCount⟩]

/-! ## The database -/

structure Database where
  queue : List QueueRow
  queueMessage : List QueueMessage
  queueDeadLetterMessage : List QueueDeadLetterMessage
  queuePriorityStateShard : List QueuePriorityStateShard
  /-- The next value of the identity sequence behind `enqueue_order`. -/
  enqueueOrderSequence : Int
deriving DecidableEq

/-- The database right after the migrations. -/
def Database.empty : Database := ⟨[], [], [], [], 1⟩

/-- The foreign key `REFERENCES queue(id)`. -/
def queueExists (queues : List QueueRow) (queueId : Uuid) : Bool := queues.any (·.id = queueId)

@[simp] theorem queueExists_iff {queues : List QueueRow} {queueId : Uuid} :
    queueExists queues queueId = true ↔ ∃ q ∈ queues, q.id = queueId := by
  simp [queueExists]

/-! ## What the constraints say -/

theorem QueueRow.checked_iff {q : QueueRow} : Checked queueChecks q ↔
    (1 ≤ q.name.utf8ByteSize ∧ q.name.utf8ByteSize ≤ 64) ∧ matchesNameFormat q.name ∧
      (1 ≤ q.visibilityTimeoutSeconds ∧ q.visibilityTimeoutSeconds ≤ 21600) ∧
      (1 ≤ q.maxDeliveryAttempts ∧ q.maxDeliveryAttempts ≤ 100) ∧
      (1 ≤ q.defaultMessageTtlSeconds ∧ q.defaultMessageTtlSeconds ≤ 2592000) ∧
      q.createdAt ≤ q.updatedAt := by
  simp [Checked, queueChecks]

theorem QueueMessage.checked_iff {m : QueueMessage} : Checked queueMessageChecks m ↔
    (1 ≤ m.priority ∧ m.priority ≤ 3) ∧ 0 ≤ m.deliveryAttempts ∧
      (m.enqueuedAt < m.expiresAt ∧ m.expiresAt ≤ m.enqueuedAt + days 30) ∧
      ((m.state = .ready ∧ m.receiptHandle = none ∧ m.lastDeliveredAt = none ∧
          m.deliveryAttempts = 0) ∨
        (m.state = .inFlight ∧ m.receiptHandle ≠ none ∧ m.lastDeliveredAt ≠ none ∧
          0 < m.deliveryAttempts)) ∧
      (match m.lastDeliveredAt with
        | none => m.enqueuedAt ≤ m.availableAfter
        | some delivered => delivered < m.availableAfter) ∧
      ∀ delivered ∈ m.lastDeliveredAt, m.enqueuedAt ≤ delivered := by
  cases h : m.lastDeliveredAt <;> simp [Checked, queueMessageChecks, h]

/-- What a checked row's state says about its other columns. -/
theorem QueueMessage.state_cases {m : QueueMessage} (h : Checked queueMessageChecks m) :
    (m.state = .ready ∧ m.receiptHandle = none ∧ m.deliveryAttempts = 0) ∨
      (m.state = .inFlight ∧ ∃ receiptHandle, m.receiptHandle = some receiptHandle) := by
  rcases (QueueMessage.checked_iff.mp h).2.2.2.1 with ⟨hs, hr, -, ha⟩ | ⟨hs, hr, -, -⟩
  · exact Or.inl ⟨hs, hr, ha⟩
  · exact Or.inr ⟨hs, Option.ne_none_iff_exists'.mp hr⟩

theorem QueueDeadLetterMessage.checked_iff {m : QueueDeadLetterMessage} :
    Checked queueDeadLetterMessageChecks m ↔
      (1 ≤ m.priority ∧ m.priority ≤ 3) ∧ 0 ≤ m.deliveryAttempts ∧
        m.reason = maxDeliveryAttemptsExhausted ∧
        m.enqueuedAt ≤ m.lastDeliveredAt ∧ m.enqueuedAt < m.expiresAt ∧
          m.lastDeliveredAt ≤ m.deadLetteredAt := by
  simp [Checked, queueDeadLetterMessageChecks]

theorem QueuePriorityStateShard.checked_iff {s : QueuePriorityStateShard} :
    Checked queuePriorityStateShardChecks s ↔
      (1 ≤ s.key.priority ∧ s.key.priority ≤ 3) ∧ (0 ≤ s.key.shard ∧ s.key.shard ≤ 31) ∧
        0 ≤ s.readyCount ∧ 0 ≤ s.inFlightCount := by
  simp [Checked, queuePriorityStateShardChecks]

end Retsu
