/-
  The domain types of the queue module (`modules/queue/domain`).

  A `Queue`, a `QueueConfigurationUpdate` and a `Message` can be had from their `new` only,
  so each type carries what its `new` checked.  The identifiers that `new` draws with
  `Uuid::now_v7()` are arguments here.
-/
import Mathlib

namespace Retsu

/-- A UUID.  PostgreSQL compares UUIDs byte by byte from the most significant one, which is
    the order of the 128-bit number. -/
abbrev Uuid := Fin (2 ^ 128)

instance uuid_neZero : NeZero (2 ^ 128) := ⟨by decide⟩

instance uuid_lawfulBEq : LawfulBEq Uuid := inferInstance

/-! ## Messages -/

inductive MessagePriority
  | high
  | medium
  | low
deriving DecidableEq, Repr

inductive MessageValidationError
  | invalidPriority
  | invalidTtl
deriving DecidableEq, Repr

def MessageValidationError.message : MessageValidationError → String
  | invalidPriority => "priority must be one of HIGH, MEDIUM or LOW"
  | invalidTtl => "ttl_seconds must be between 1 and 2592000 when provided"

namespace MessagePriority

def parse (value : String) : Except MessageValidationError MessagePriority :=
  match value with
  | "HIGH" => .ok high
  | "MEDIUM" => .ok medium
  | "LOW" => .ok low
  | _ => .error .invalidPriority

def fromRank (rank : Int) : Option MessagePriority :=
  match rank with
  | 3 => some high
  | 2 => some medium
  | 1 => some low
  | _ => none

def asStr : MessagePriority → String
  | high => "HIGH"
  | medium => "MEDIUM"
  | low => "LOW"

def rank : MessagePriority → Int
  | high => 3
  | medium => 2
  | low => 1

/-- Every label reads back as the priority it stands for. -/
theorem parse_asStr (p : MessagePriority) : parse p.asStr = .ok p := by cases p <;> rfl

/-- Every rank reads back as the priority it stands for. -/
theorem fromRank_rank (p : MessagePriority) : fromRank p.rank = some p := by cases p <;> rfl

/-- The ranks of the priorities are the values 1 to 3 of the `priority` column. -/
theorem exists_rank {value : Int} (h : 1 ≤ value ∧ value ≤ 3) :
    ∃ priority, fromRank value = some priority ∧ value = rank priority := by
  obtain rfl | rfl | rfl : value = 1 ∨ value = 2 ∨ value = 3 := by omega
  exacts [⟨low, rfl, rfl⟩, ⟨medium, rfl, rfl⟩, ⟨high, rfl, rfl⟩]

end MessagePriority

def minMessageTtlSeconds : UInt32 := 1
def maxMessageTtlSeconds : UInt32 := 2592000

/-- The range check that `Message::new` and the queue settings make on a TTL. -/
def ttlInRange (ttl : UInt32) : Bool := minMessageTtlSeconds ≤ ttl ∧ ttl ≤ maxMessageTtlSeconds

structure Message where
  id : Uuid
  payload : String
  priority : MessagePriority
  ttlSeconds : Option UInt32
  ttl_valid : ttlSeconds.all ttlInRange
deriving DecidableEq, Repr

def Message.new (id : Uuid) (payload priority : String) (ttlSeconds : Option UInt32) :
    Except MessageValidationError Message := do
  let priority ← MessagePriority.parse priority
  if h : ttlSeconds.all ttlInRange then
    return { id, payload, priority, ttlSeconds, ttl_valid := h }
  else
    throw .invalidTtl

/-! ## Queues -/

inductive QueueNameError
  | invalidLength
  | invalidFormat
deriving DecidableEq, Repr

def QueueNameError.message : QueueNameError → String
  | invalidLength => "queue name must contain between 1 and 64 ASCII characters"
  | invalidFormat =>
    "queue name must contain only ASCII lowercase letters, digits, dots, underscores, or " ++
    "hyphens, and must start and end with an ASCII lowercase letter or digit"

def minQueueNameLength : Nat := 1
def maxQueueNameLength : Nat := 64

def isQueueNameEndpoint (byte : UInt8) : Bool :=
  (97 ≤ byte ∧ byte ≤ 122) ∨ (48 ≤ byte ∧ byte ≤ 57)

def isQueueNameCharacter (byte : UInt8) : Bool :=
  isQueueNameEndpoint byte ∨ byte = 46 ∨ byte = 95 ∨ byte = 45

/-- The checks of `QueueName::parse`, on the bytes of the value. -/
def validateQueueName (value : String) : Except QueueNameError Unit :=
  let bytes := value.toByteArray.data.toList
  if ¬(minQueueNameLength ≤ bytes.length ∧ bytes.length ≤ maxQueueNameLength) then
    .error .invalidLength
  else
    let hasValidStart := bytes.head?.any isQueueNameEndpoint
    let hasValidEnd := bytes.getLast?.any isQueueNameEndpoint
    let containsOnlySupportedCharacters := bytes.all isQueueNameCharacter
    if !hasValidStart || !hasValidEnd || !containsOnlySupportedCharacters then
      .error .invalidFormat
    else .ok ()

structure QueueName where
  asStr : String
  valid : validateQueueName asStr = .ok ()

def QueueName.parse (value : String) : Except QueueNameError QueueName :=
  match h : validateQueueName value with
  | .ok () => .ok ⟨value, h⟩
  | .error e => .error e

inductive QueueSettingsError
  | invalidVisibilityTimeout
  | invalidMaxDeliveryAttempts
  | invalidDefaultMessageTtl
deriving DecidableEq, Repr

def QueueSettingsError.message : QueueSettingsError → String
  | invalidVisibilityTimeout => "visibility timeout must be between 1 and 21600 seconds"
  | invalidMaxDeliveryAttempts => "max delivery attempts must be between 1 and 100"
  | invalidDefaultMessageTtl => "default message TTL must be between 1 and 2592000 seconds"

def defaultVisibilityTimeoutSeconds : UInt32 := 30
def minVisibilityTimeoutSeconds : UInt32 := 1
def maxVisibilityTimeoutSeconds : UInt32 := 21600

def defaultMaxDeliveryAttempts : UInt16 := 5
def minMaxDeliveryAttempts : UInt16 := 1
def maxMaxDeliveryAttempts : UInt16 := 100

def defaultMessageTtlSeconds : UInt32 := 604800

def visibilityTimeoutInRange (value : UInt32) : Bool :=
  minVisibilityTimeoutSeconds ≤ value ∧ value ≤ maxVisibilityTimeoutSeconds

def maxDeliveryAttemptsInRange (value : UInt16) : Bool :=
  minMaxDeliveryAttempts ≤ value ∧ value ≤ maxMaxDeliveryAttempts

structure QueueSettings where
  visibilityTimeoutSeconds : UInt32
  maxDeliveryAttempts : UInt16
  defaultMessageTtlSeconds : UInt32
  visibility_valid : visibilityTimeoutInRange visibilityTimeoutSeconds
  attempts_valid : maxDeliveryAttemptsInRange maxDeliveryAttempts
  ttl_valid : ttlInRange defaultMessageTtlSeconds

def QueueSettings.new (visibilityTimeoutSeconds : Option UInt32)
    (maxDeliveryAttempts : Option UInt16) (messageTtlSeconds : Option UInt32) :
    Except QueueSettingsError QueueSettings :=
  let visibility := visibilityTimeoutSeconds.getD defaultVisibilityTimeoutSeconds
  let attempts := maxDeliveryAttempts.getD defaultMaxDeliveryAttempts
  let ttl := messageTtlSeconds.getD Retsu.defaultMessageTtlSeconds
  if hv : visibilityTimeoutInRange visibility then
    if ha : maxDeliveryAttemptsInRange attempts then
      if ht : ttlInRange ttl then .ok ⟨visibility, attempts, ttl, hv, ha, ht⟩
      else .error .invalidDefaultMessageTtl
    else .error .invalidMaxDeliveryAttempts
  else .error .invalidVisibilityTimeout

inductive QueueValidationError
  | invalidName (error : QueueNameError)
  | invalidSettings (error : QueueSettingsError)

structure Queue where
  id : Uuid
  name : QueueName
  settings : QueueSettings

def Queue.new (id : Uuid) (name : String) (visibilityTimeoutSeconds : Option UInt32)
    (maxDeliveryAttempts : Option UInt16) (defaultMessageTtlSeconds : Option UInt32) :
    Except QueueValidationError Queue := do
  let name ← (QueueName.parse name).mapError .invalidName
  let settings ← (QueueSettings.new visibilityTimeoutSeconds maxDeliveryAttempts
    defaultMessageTtlSeconds).mapError .invalidSettings
  return { id, name, settings }

structure QueueDetails where
  id : Uuid
  name : String
  visibilityTimeoutSeconds : UInt32
  maxDeliveryAttempts : UInt16
  defaultMessageTtlSeconds : UInt32
deriving DecidableEq, Repr

def Queue.details (queue : Queue) : QueueDetails where
  id := queue.id
  name := queue.name.asStr
  visibilityTimeoutSeconds := queue.settings.visibilityTimeoutSeconds
  maxDeliveryAttempts := queue.settings.maxDeliveryAttempts
  defaultMessageTtlSeconds := queue.settings.defaultMessageTtlSeconds

structure QueueConfigurationUpdate where
  visibilityTimeoutSeconds : Option UInt32
  maxDeliveryAttempts : Option UInt16
  defaultMessageTtlSeconds : Option UInt32
  visibility_valid : visibilityTimeoutSeconds.all visibilityTimeoutInRange
  attempts_valid : maxDeliveryAttempts.all maxDeliveryAttemptsInRange
  ttl_valid : defaultMessageTtlSeconds.all ttlInRange

def QueueConfigurationUpdate.new (visibilityTimeoutSeconds : Option UInt32)
    (maxDeliveryAttempts : Option UInt16) (defaultMessageTtlSeconds : Option UInt32) :
    Except QueueSettingsError QueueConfigurationUpdate :=
  if hv : visibilityTimeoutSeconds.all visibilityTimeoutInRange then
    if ha : maxDeliveryAttempts.all maxDeliveryAttemptsInRange then
      if ht : defaultMessageTtlSeconds.all ttlInRange then
        .ok ⟨visibilityTimeoutSeconds, maxDeliveryAttempts, defaultMessageTtlSeconds, hv, ha, ht⟩
      else .error .invalidDefaultMessageTtl
    else .error .invalidMaxDeliveryAttempts
  else .error .invalidVisibilityTimeout

/-- The defaults pass the checks that are made on them: settings left out never fail. -/
theorem QueueSettings.new_defaults : ∃ settings, QueueSettings.new none none none = .ok settings :=
  ⟨_, rfl⟩

end Retsu
