/-
  The rollup of `queue_message` by queue, priority and shard, as its migration maintains it.

  `adjustQueuePriorityState` changes one counter row, `maintainQueuePriorityState` is the body
  of the statement-level trigger function: three branches that turn transition tables into a
  sorted list of (key, delta) pairs and adjust one row for each.  `backfill` is the query that
  fills the rollup when the migration runs.
-/
import Mathlib.Algebra.Group.Int.Defs
import Mathlib.Algebra.Group.Prod
import Retsu.Relational.GroupBy
import Retsu.Relational.Outcome
import Retsu.Relational.Table
import Retsu.Schema

namespace Retsu

open Relational

/-- `get_byte(uuid_send(message_id), 15) % 32`: the least significant byte selects the shard. -/
def queueMessageStateShard (messageId : Uuid) : Int := (messageId.val % 256 % 32 : Nat)

theorem queueMessageStateShard_range (messageId : Uuid) :
    0 ≤ queueMessageStateShard messageId ∧ queueMessageStateShard messageId ≤ 31 := by
  unfold queueMessageStateShard
  omega

/-- The counter row a message is counted in. -/
def QueueMessage.shardKey (m : QueueMessage) : ShardKey :=
  ⟨m.queueId, m.priority, queueMessageStateShard m.id⟩

/-! ## One counter row -/

/-- The row of a key. -/
def findShard (shards : List QueuePriorityStateShard) (key : ShardKey) :
    Option QueuePriorityStateShard :=
  shards.find? fun s => s.key = key

/-- `adjust_queue_priority_state`: update the row of the key, or insert it.  Within one
    session the `ON CONFLICT` clause of the insert never fires, since the update before it
    found no row. -/
def adjustQueuePriorityState (queues : List QueueRow) (shards : List QueuePriorityStateShard)
    (change : ShardKey × StateCounts) : Except SqlError (List QueuePriorityStateShard) :=
  match findShard shards change.1 with
  | some found => do
    let updated := { found with counts := found.counts + change.2 }
    checkRow queuePriorityStateShardChecks updated
    return shards.map fun s => if s.key = change.1 then updated else s
  | none => do
    require (¬(change.2.1 < 0 ∨ change.2.2 < 0))
      (.raised "cannot decrement missing queue priority state shard")
    let inserted := { key := change.1, counts := change.2 }
    checkRow queuePriorityStateShardChecks inserted
    require (queueExists queues change.1.queueId)
      (.foreignKeyViolation "queue_priority_state_shard_queue_id_fkey")
    return shards ++ [inserted]

/-! ## The trigger function -/

/-- `(COUNT(*) FILTER (WHERE state = 'READY'), COUNT(*) FILTER (WHERE state = 'IN_FLIGHT'))`. -/
def stateCounts (messages : List QueueMessage) : StateCounts :=
  (messages.countP fun m => m.state = .ready, messages.countP fun m => m.state = .inFlight)

/-- The counts of the messages, grouped by counter row and in the order of its key. -/
def groupedCounts (messages : List QueueMessage) : List (ShardKey × StateCounts) :=
  aggregate QueueMessage.shardKey stateCounts messages

/-- The same, negated. -/
def groupedNegatedCounts (messages : List QueueMessage) : List (ShardKey × StateCounts) :=
  aggregate QueueMessage.shardKey (fun ms => -stateCounts ms) messages

/-- `old_messages FULL JOIN new_messages ON new_message.id = old_message.id`. -/
def fullJoin (old new : List QueueMessage) : List (Option QueueMessage × Option QueueMessage) :=
  (old.flatMap fun o =>
    match new.filter fun n => n.id = o.id with
    | [] => [(some o, none)]
    | matching => matching.map fun n => (some o, some n)) ++
  (new.filter fun n => !old.any fun o => n.id = o.id).map fun n => (none, some n)

/-- The WHERE clause over the join: the pair is incomplete or differs in a counted column. -/
def isStateChange : Option QueueMessage × Option QueueMessage → Bool
  | (some old, some new) =>
    old.queueId ≠ new.queueId ∨ old.priority ≠ new.priority ∨ old.state ≠ new.state
  | _ => true

/-- `TG_OP`, with the transition tables of the trigger it selects. -/
inductive TransitionTables
  | insert (newMessages : List QueueMessage)
  | delete (oldMessages : List QueueMessage)
  | update (oldMessages newMessages : List QueueMessage)

/-- The UPDATE branch returns before it touches the rollup. -/
def exitsEarly (oldMessages newMessages : List QueueMessage) : Bool :=
  !(fullJoin oldMessages newMessages).any isStateChange

/-- The rows of `change` in each branch: what is adjusted, in this order. -/
def TransitionTables.changes : TransitionTables → List (ShardKey × StateCounts)
  | insert newMessages => groupedCounts newMessages
  | delete oldMessages => groupedNegatedCounts oldMessages
  | update oldMessages newMessages =>
    if exitsEarly oldMessages newMessages then []
    else netTotals (groupedNegatedCounts oldMessages ++ groupedCounts newMessages)

/-- `maintain_queue_priority_state`. -/
def maintainQueuePriorityState (queues : List QueueRow) (shards : List QueuePriorityStateShard)
    (tables : TransitionTables) : Except SqlError (List QueuePriorityStateShard) :=
  tables.changes.foldlM (adjustQueuePriorityState queues) shards

/-! ## The backfill -/

/-- The rows that the migration computes from the messages that exist. -/
def backfill (messages : List QueueMessage) : List QueuePriorityStateShard :=
  (groupedCounts messages).map fun e => ⟨e.1, e.2⟩

end Retsu
