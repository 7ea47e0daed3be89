/-
  One statement on `queue_message`: its rows, its constraint checks and its triggers.

  A statement may insert, update and delete at once (`dequeue_message` updates and deletes in
  one).  It gives every row of the table one fate, checks the constraints on what it has
  written, and then fires the statement-level triggers it involves, each once and each with
  the transition tables of the whole statement.  An error anywhere rejects it as a whole.

  Uniqueness is checked on the table the statement leaves behind.  PostgreSQL checks it row by
  row and so rejects some statements that only permute identifiers; accepting these as well
  makes the results about arbitrary statements stronger.
-/
import Retsu.Rollup

namespace Retsu

open Relational

/-- The operation a trigger is installed for. -/
inductive TriggerEvent
  | insert
  | update
  | delete
deriving DecidableEq, Repr

/-- A statement on `queue_message`, with the triggers that fire and their order. -/
structure Statement where
  inserted : List QueueMessage
  change : QueueMessage → RowChange QueueMessage
  fires : List TriggerEvent
  fires_once : fires.Nodup
  fires_insert : inserted ≠ [] → .insert ∈ fires
  fires_update : ∀ m m', change m = .update m' → .update ∈ fires
  fires_delete : ∀ m, change m = .delete → .delete ∈ fires

namespace Statement

/-- The table after the statement. -/
def apply (s : Statement) (messages : List QueueMessage) : List QueueMessage :=
  applyChanges s.change messages ++ s.inserted

/-- The row versions the statement writes. -/
def written (s : Statement) (messages : List QueueMessage) : List QueueMessage :=
  (updatedRows s.change messages).map Prod.snd ++ s.inserted

/-- The transition tables that the trigger of an event sees. -/
def transitionTables (s : Statement) (messages : List QueueMessage) :
    TriggerEvent → TransitionTables
  | .insert => .insert s.inserted
  | .update => .update ((updatedRows s.change messages).map Prod.fst)
      ((updatedRows s.change messages).map Prod.snd)
  | .delete => .delete (deletedRows s.change messages)

/-- The constraints of `queue_message`: CHECKs and foreign key on the written rows, uniqueness
    on the table. -/
def check (s : Statement) (db : Database) : Except SqlError Unit := do
  forEach (checkRow queueMessageChecks) (s.written db.queueMessage)
  require ((s.apply db.queueMessage).map (·.id)).Nodup (.uniqueViolation "queue_message_pkey")
  require ((s.apply db.queueMessage).map (·.enqueueOrder)).Nodup
    (.uniqueViolation "queue_message_enqueue_order_key")
  require (∀ m ∈ s.written db.queueMessage, queueExists db.queue m.queueId)
    (.foreignKeyViolation "queue_message_queue_id_fkey")

/-- The counter rows after the statement's triggers. -/
def fire (s : Statement) (db : Database) : Except SqlError (List QueuePriorityStateShard) :=
  s.fires.foldlM (fun shards event => maintainQueuePriorityState db.queue shards
    (s.transitionTables db.queueMessage event)) db.queuePriorityStateShard

/-- The counter rows the statement adjusts, in order. -/
def adjustedShards (s : Statement) (messages : List QueueMessage) : List ShardKey :=
  s.fires.flatMap fun event => (s.transitionTables messages event).changes.map Prod.fst

/-- Runs the statement. -/
def exec (s : Statement) (db : Database) : Except SqlError Database := do
  s.check db
  let shards ← s.fire db
  return { db with
    queueMessage := s.apply db.queueMessage
    queuePriorityStateShard := shards }

/-! ## The statements of one kind -/

/-- `INSERT`. -/
def insert (rows : List QueueMessage) : Statement where
  inserted := rows
  change _ := .keep
  fires := [.insert]
  fires_once := by simp
  fires_insert _ := by simp
  fires_update _ _ h := by simp at h
  fires_delete _ h := by simp at h

/-- `DELETE … WHERE`. -/
def delete (doomed : QueueMessage → Bool) : Statement where
  inserted := []
  change m := if doomed m then .delete else .keep
  fires := [.delete]
  fires_once := by simp
  fires_insert h := by simp at h
  fires_update m m' h := by split at h <;> simp at h
  fires_delete _ _ := by simp

/-! ## What the checks establish -/

theorem check_eq_ok {s : Statement} {db : Database} : s.check db = .ok () ↔
    (∀ m ∈ s.written db.queueMessage, Checked queueMessageChecks m) ∧
      ((s.apply db.queueMessage).map (·.id)).Nodup ∧
      ((s.apply db.queueMessage).map (·.enqueueOrder)).Nodup ∧
      ∀ m ∈ s.written db.queueMessage, ∃ q ∈ db.queue, q.id = m.queueId := by
  simp [check, guard_eq_ok, forEach_eq_ok, checkRow_eq_ok]

/-- A rejected check is the rejection of a constraint of `queue_message`. -/
theorem check_ne_raised {s : Statement} {db : Database} {text : String} :
    s.check db ≠ .error (.raised text) := by
  intro h
  simp only [check, guard_eq_error, require_eq_error] at h
  rcases h with h | ⟨-, h | ⟨-, h | ⟨-, h⟩⟩⟩
  · obtain ⟨m, -, hm⟩ := forEach_eq_error h
    obtain ⟨c, -, he, -⟩ := checkRow_eq_error hm
    simp at he
  all_goals simp at h

end Statement

end Retsu
