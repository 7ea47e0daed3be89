/-
  Concurrent transactions, under READ COMMITTED.

  Every operation is one statement in a transaction of its own.  A transaction fixes its
  `CURRENT_TIMESTAMP` when it starts; the statement's snapshot comes later and has everything
  committed before it.  The statement then visits the rows it has selected in the snapshot: it
  passes over a row that another transaction has locked (an acknowledge waits instead), and
  checks the newest version of a row that it locks.  Its triggers lock counter rows, one after
  the other, until it commits; all locks are held to the end.

  Until it commits, a transaction's writes are invisible to the others and concern rows that it
  has locked, so they are made in one step, by the functions the sequential operations use.
-/
import Retsu.Concurrency.Execution
import Retsu.Concurrency.LockTable
import Retsu.Concurrency.Scan
import Retsu.History

namespace Retsu

open Relational Concurrency

/-! ## Transactions -/

/-- What transactions lock. -/
inductive Lock
  | message (id : Uuid)
  | deadLetter (id : Uuid)
  | counter (key : ShardKey)
deriving DecidableEq

inductive Phase
  | started
  /-- The statement has its snapshot and locks rows. -/
  | selecting
  /-- The triggers lock counter rows. -/
  | counting
  | committed (response : Response)
  | aborted
deriving DecidableEq

def Phase.active : Phase → Bool
  | started | selecting | counting => true
  | committed _ | aborted => false

/-- The row-locking selections a statement can have: rows to delete, and a row to lease. -/
inductive Selection
  | delete
  | lease
deriving DecidableEq

structure Txn where
  op : Operation
  /-- `CURRENT_TIMESTAMP`. -/
  now : Int
  phase : Phase
  /-- `target_queue`, in the snapshot. -/
  queue : Option QueueRow
  scan : Selection → Scan Uuid
  /-- The value drawn for `enqueue_order`. -/
  enqueueOrder : Int
  /-- The counter rows still to be locked, in order. -/
  counters : List ShardKey

def Txn.begin (op : Operation) (now : Int) : Txn where
  op := op
  now := now
  phase := .started
  queue := none
  scan _ := .idle
  enqueueOrder := 0
  counters := []

/-! ## Selecting rows -/

/-- The queue whose configuration a statement reads. -/
def Operation.target (db : Database) : Operation → Option QueueRow
  | dequeueMessage queueId _ => targetQueue db queueId
  | _ => none

/-- The rows a statement selects in its snapshot. -/
def Operation.select (db : Database) (now : Int) (op : Operation) : Selection → Scan Uuid
  | .delete =>
    match op with
    | dequeueMessage queueId _ =>
      match targetQueue db queueId with
      | none => .idle
      | some queue =>
        .start ((deadLetterCandidates db queue now).map (·.id)) dequeueDeadLetterBatchSize
    | acknowledgeMessage queueId messageId receiptHandle =>
      let found := db.queueMessage.filter (isAcknowledgeable queueId messageId receiptHandle now)
      .start (found.map (·.id)) found.length
    | processExpiredMessages batchSize =>
      .start ((expiredCandidates db now).map (·.id)) batchSize.toNat
    | purgeDeadLetterMessages retentionSeconds batchSize =>
      .start ((purgeCandidates db retentionSeconds now).map (·.id)) batchSize.toNat
    | _ => .idle
  | .lease =>
    match op with
    | dequeueMessage queueId _ =>
      match targetQueue db queueId with
      | none => .idle
      | some queue => .start ((deliveryCandidates db queue now).map (·.id)) 1
    | _ => .idle

/-- The WHERE clauses over `queue_message`, for the queue that the snapshot has. -/
def Txn.wants (t : Txn) (selection : Selection) (m : QueueMessage) : Bool :=
  match selection, t.op with
  | .delete, .dequeueMessage _ _ => t.queue.any fun queue => isDeadLetterCandidate queue t.now m
  | .delete, .acknowledgeMessage queueId messageId receiptHandle =>
    isAcknowledgeable queueId messageId receiptHandle t.now m
  | .delete, .processExpiredMessages _ => isExpired t.now m
  | .lease, .dequeueMessage _ _ => t.queue.any fun queue => isCandidate queue t.now m
  | _, _ => false

/-- The WHERE clause over `queue_dead_letter_message`. -/
def Txn.wantsDeadLetter (t : Txn) (selection : Selection) (d : QueueDeadLetterMessage) : Bool :=
  match selection, t.op with
  | .delete, .purgeDeadLetterMessages retentionSeconds _ => isPurgeable retentionSeconds t.now d
  | _, _ => false

/-- A purge locks dead letters; all other statements lock messages. -/
def Operation.isPurge : Operation → Bool
  | purgeDeadLetterMessages _ _ => true
  | _ => false

def Txn.lock (t : Txn) (id : Uuid) : Lock := if t.op.isPurge then .deadLetter id else .message id

/-- Whether the newest version of a row, if there is one, is still wanted. -/
def Txn.recheck (t : Txn) (db : Database) (selection : Selection) (id : Uuid) : Option Bool :=
  if t.op.isPurge then
    (db.queueDeadLetterMessage.find? fun d => d.id = id).map (t.wantsDeadLetter selection)
  else (db.queueMessage.find? fun m => m.id = id).map (t.wants selection)

/-- A plain DELETE waits for a row that is locked. -/
def Operation.waits : Operation → Bool
  | acknowledgeMessage _ _ _ => true
  | _ => false

def Txn.setScan (t : Txn) (selection : Selection) (scan : Scan Uuid) : Txn :=
  { t with scan := fun other => if other = selection then scan else t.scan other }

/-! ## Executing the statement -/

/-- The statement's writes, with the rows that the transaction has locked for them. -/
def Txn.execute (order : TriggerOrder) (t : Txn) (db : Database) : Database × Response :=
  match t.op with
  | .createQueue queue => createQueue db t.now queue
  | .updateQueue queueId configuration => updateQueue db t.now queueId configuration
  | .enqueueMessage queueId message effectiveTtlSeconds =>
    settle db (fun () => .enqueueMessage)
      (executeEnqueue db (message.row queueId effectiveTtlSeconds t.enqueueOrder t.now))
  | .dequeueMessage _ receiptHandle =>
    match t.queue with
    | none =>
      (db, respond .dequeueMessage (decodeDequeue receiptHandle (dequeueMessageRow none none 0)))
    | some queue =>
      settle db (fun row => respond .dequeueMessage (decodeDequeue receiptHandle row))
        (executeDequeue order db queue receiptHandle t.now (t.scan .delete).picked
          (t.scan .lease).picked.head?)
  | .acknowledgeMessage _ _ _ =>
    settle db .acknowledgeMessage (executeAcknowledge db (t.scan .delete).picked)
  | .processExpiredMessages _ =>
    settle db (fun rows => respond .processExpiredMessages (decodeExpired rows))
      (executeExpired db (t.scan .delete).picked)
  | .purgeDeadLetterMessages _ _ =>
    let (db', rows) := executePurge db (t.scan .delete).picked
    (db', respond .purgeDeadLetterMessages (decodePurged rows))

/-- The counter rows that the statement's triggers adjust, in order.  PostgreSQL checks the rows
    that are written before it fires the triggers, and a statement with a row that violates a check
    adjusts nothing: here such a dequeue may lock its counter rows first, and then fails at its
    commit or is aborted.  So the model has these runs besides those of PostgreSQL. -/
def Txn.adjusted (order : TriggerOrder) (t : Txn) (db : Database) : List ShardKey :=
  match t.op with
  | .enqueueMessage queueId message effectiveTtlSeconds =>
    (Statement.insert [message.row queueId effectiveTtlSeconds t.enqueueOrder t.now]).adjustedShards
      db.queueMessage
  | .dequeueMessage _ receiptHandle =>
    match t.queue with
    | none => []
    | some queue =>
      (dequeueStatement order receiptHandle t.now queue.visibilityTimeoutSeconds
        (t.scan .delete).picked (t.scan .lease).picked.head?).adjustedShards db.queueMessage
  | .acknowledgeMessage _ _ _ | .processExpiredMessages _ =>
    (deleteStatement (t.scan .delete).picked).adjustedShards db.queueMessage
  | _ => []

/-! ## The system -/

structure System where
  /-- What has been committed. -/
  db : Database
  clock : Int
  txns : Nat → Option Txn
  locks : LockTable Lock Nat
  /-- The message ids and the receipt handles that have been drawn. -/
  messageIds : List Uuid
  receiptHandles : List Uuid
  /-- The transactions that have committed, in the order of their commits. -/
  log : List Event

def System.initial : System where
  db := .empty
  clock := 0
  txns _ := none
  locks := .empty
  messageIds := []
  receiptHandles := []
  log := []

inductive Action
  /-- Time passes. -/
  | tick (now : Int)
  | start (tid : Nat) (op : Operation)
  | snapshot (tid : Nat)
  /-- The statement visits its next row. -/
  | visit (tid : Nat) (selection : Selection)
  /-- The statement has its rows; its triggers begin. -/
  | count (tid : Nat)
  /-- A trigger locks its next counter row. -/
  | lockCounter (tid : Nat)
  | commit (tid : Nat)
  | abort (tid : Nat)

namespace System

def setTxn (s : System) (tid : Nat) (t : Txn) : System :=
  { s with txns := fun other => if other = tid then some t else s.txns other }

/-- The transaction, if it is in the given phase. -/
def inPhase (s : System) (tid : Nat) (phase : Phase) : Option Txn :=
  (s.txns tid).filter fun t => t.phase = phase

/-- The identifiers of an operation have never been drawn before. -/
def unused (s : System) (op : Operation) : Bool :=
  op.enqueuedId.all (· ∉ s.messageIds) && op.drawnHandle.all (· ∉ s.receiptHandles)

def begin (s : System) (tid : Nat) (op : Operation) : System :=
  { s.setTxn tid (.begin op s.clock) with
    messageIds := op.enqueuedId.toList ++ s.messageIds
    receiptHandles := op.drawnHandle.toList ++ s.receiptHandles }

/-- An enqueue draws from the sequence, which no rollback gives back. -/
def takeSnapshot (s : System) (tid : Nat) (t : Txn) : System :=
  { s.setTxn tid { t with
      phase := .selecting
      queue := t.op.target s.db
      scan := t.op.select s.db t.now
      enqueueOrder := s.db.enqueueOrderSequence } with
    db := { s.db with
      enqueueOrderSequence := s.db.enqueueOrderSequence + if t.op.enqueuedId.isSome then 1 else 0 } }

def visit (s : System) (tid : Nat) (t : Txn) (selection : Selection) : Option System := do
  let id ← (t.scan selection).next
  let passed := s.setTxn tid (t.setScan selection (t.scan selection).pass)
  if s.locks.blocks tid (t.lock id) then
    if t.op.waits then none else some passed
  else
    match t.recheck s.db selection id with
    | none => some passed
    | some false => some { passed with locks := s.locks.acquire tid (t.lock id) }
    | some true => some { s.setTxn tid (t.setScan selection ((t.scan selection).pick id)) with
        locks := s.locks.acquire tid (t.lock id) }

/-- Every row has been visited that is to be. -/
def selected (t : Txn) : Bool := (t.scan .delete).next.isNone && (t.scan .lease).next.isNone

def lockCounter (s : System) (tid : Nat) (t : Txn) : Option System :=
  match t.counters with
  | [] => none
  | key :: rest =>
    if s.locks.blocks tid (.counter key) then none
    else some { s.setTxn tid { t with counters := rest } with
      locks := s.locks.acquire tid (.counter key) }

/-- The entry of a commit in the log. -/
def commitEvent (order : TriggerOrder) (s : System) (t : Txn) : Event where
  before := s.db
  now := t.now
  op := t.op
  response := (t.execute order s.db).2
  after := (t.execute order s.db).1

def commit (order : TriggerOrder) (s : System) (tid : Nat) (t : Txn) : System :=
  let e := s.commitEvent order t
  { s.setTxn tid { t with phase := .committed e.response } with
    db := e.after
    locks := s.locks.release tid
    log := s.log ++ [e] }

def abort (s : System) (tid : Nat) (t : Txn) : System :=
  { s.setTxn tid { t with phase := .aborted } with locks := s.locks.release tid }

end System

/-- One step; an action that is not possible gives no state. -/
def step (order : TriggerOrder) (s : System) : Action → Option System
  | .tick now => if s.clock ≤ now then some { s with clock := now } else none
  | .start tid op => if (s.txns tid).isNone ∧ s.unused op then some (s.begin tid op) else none
  | .snapshot tid => (s.inPhase tid .started).map (s.takeSnapshot tid)
  | .visit tid selection => (s.inPhase tid .selecting).bind fun t => s.visit tid t selection
  | .count tid => ((s.inPhase tid .selecting).filter System.selected).map fun t =>
      s.setTxn tid { t with phase := .counting, counters := t.adjusted order s.db }
  | .lockCounter tid => (s.inPhase tid .counting).bind (s.lockCounter tid)
  | .commit tid => ((s.inPhase tid .counting).filter fun t => t.counters = []).map (s.commit order tid)
  | .abort tid => ((s.txns tid).filter fun t => t.phase.active).map (s.abort tid)

/-! ## What a step can do -/

/-- The steps, with the guards that hold where they are taken. -/
inductive Step (order : TriggerOrder) (s : System) : Action → System → Prop
  | tick {now : Int} (htime : s.clock ≤ now) : Step order s (.tick now) { s with clock := now }
  | start {tid : Nat} {op : Operation} (hidle : s.txns tid = none)
      (hid : ∀ id ∈ op.enqueuedId, id ∉ s.messageIds)
      (hhandle : ∀ receiptHandle ∈ op.drawnHandle, receiptHandle ∉ s.receiptHandles) :
      Step order s (.start tid op) (s.begin tid op)
  | snapshot {tid : Nat} {t : Txn} (ht : s.txns tid = some t) (hphase : t.phase = .started) :
      Step order s (.snapshot tid) (s.takeSnapshot tid t)
  | pass {tid : Nat} {t : Txn} {selection : Selection} {id : Uuid} (ht : s.txns tid = some t)
      (hphase : t.phase = .selecting) (hnext : (t.scan selection).next = some id)
      (hreason : (s.locks.blocks tid (t.lock id) = true ∧ t.op.waits = false) ∨
        (s.locks.blocks tid (t.lock id) = false ∧ t.recheck s.db selection id = none)) :
      Step order s (.visit tid selection)
        (s.setTxn tid (t.setScan selection (t.scan selection).pass))
  | reject {tid : Nat} {t : Txn} {selection : Selection} {id : Uuid} (ht : s.txns tid = some t)
      (hphase : t.phase = .selecting) (hnext : (t.scan selection).next = some id)
      (hfree : s.locks.blocks tid (t.lock id) = false)
      (hrecheck : t.recheck s.db selection id = some false) :
      Step order s (.visit tid selection)
        { s.setTxn tid (t.setScan selection (t.scan selection).pass) with
          locks := s.locks.acquire tid (t.lock id) }
  | pick {tid : Nat} {t : Txn} {selection : Selection} {id : Uuid} (ht : s.txns tid = some t)
      (hphase : t.phase = .selecting) (hnext : (t.scan selection).next = some id)
      (hfree : s.locks.blocks tid (t.lock id) = false)
      (hrecheck : t.recheck s.db selection id = some true) :
      Step order s (.visit tid selection)
        { s.setTxn tid (t.setScan selection ((t.scan selection).pick id)) with
          locks := s.locks.acquire tid (t.lock id) }
  | count {tid : Nat} {t : Txn} (ht : s.txns tid = some t) (hphase : t.phase = .selecting)
      (hselected : ∀ selection, (t.scan selection).next = none) :
      Step order s (.count tid)
        (s.setTxn tid { t with phase := .counting, counters := t.adjusted order s.db })
  | lockCounter {tid : Nat} {t : Txn} {key : ShardKey} {rest : List ShardKey}
      (ht : s.txns tid = some t) (hphase : t.phase = .counting) (hnext : t.counters = key :: rest)
      (hfree : s.locks.blocks tid (.counter key) = false) :
      Step order s (.lockCounter tid)
        { s.setTxn tid { t with counters := rest } with
          locks := s.locks.acquire tid (.counter key) }
  | commit {tid : Nat} {t : Txn} (ht : s.txns tid = some t) (hphase : t.phase = .counting)
      (hcounters : t.counters = []) : Step order s (.commit tid) (s.commit order tid t)
  | abort {tid : Nat} {t : Txn} (ht : s.txns tid = some t) (hactive : t.phase.active) :
      Step order s (.abort tid) (s.abort tid t)

theorem System.inPhase_eq_some {s : System} {tid : Nat} {phase : Phase} {t : Txn} :
    s.inPhase tid phase = some t ↔ s.txns tid = some t ∧ t.phase = phase := by
  simp [System.inPhase, Option.filter_eq_some_iff]

/-- **Every step is one of these.** -/
theorem step_cases {order : TriggerOrder} {s s' : System} {a : Action}
    (h : step order s a = some s') : Step order s a s' := by
  cases a with
  | tick now =>
    rw [step, Option.ite_none_right_eq_some, Option.some.injEq] at h
    obtain ⟨htime, rfl⟩ := h
    exact .tick htime
  | start tid op =>
    rw [step, Option.ite_none_right_eq_some, Option.some.injEq] at h
    obtain ⟨⟨hidle, hunused⟩, rfl⟩ := h
    simp only [System.unused, Bool.and_eq_true, Option.all_eq_true, decide_eq_true_eq] at hunused
    exact .start (Option.isNone_iff_eq_none.mp hidle) hunused.1 hunused.2
  | snapshot tid =>
    obtain ⟨t, ht, rfl⟩ := Option.map_eq_some_iff.mp h
    obtain ⟨ht, hphase⟩ := System.inPhase_eq_some.mp ht
    exact .snapshot ht hphase
  | visit tid selection =>
    obtain ⟨t, ht, hvisit⟩ := Option.bind_eq_some_iff.mp h
    obtain ⟨ht, hphase⟩ := System.inPhase_eq_some.mp ht
    obtain ⟨id, hnext, hvisit⟩ := Option.bind_eq_some_iff.mp hvisit
    split at hvisit
    · rename_i hblocked
      split at hvisit
      · simp at hvisit
      · rename_i hwaits
        obtain rfl := Option.some.inj hvisit
        exact .pass ht hphase hnext (Or.inl ⟨hblocked, by simpa using hwaits⟩)
    · rename_i hfree
      simp only [Bool.not_eq_true] at hfree
      split at hvisit
      · rename_i hgone
        obtain rfl := Option.some.inj hvisit
        exact .pass ht hphase hnext (Or.inr ⟨hfree, hgone⟩)
      · rename_i hrecheck
        obtain rfl := Option.some.inj hvisit
        exact .reject ht hphase hnext hfree hrecheck
      · rename_i hrecheck
        obtain rfl := Option.some.inj hvisit
        exact .pick ht hphase hnext hfree hrecheck
  | count tid =>
    obtain ⟨t, ht, rfl⟩ := Option.map_eq_some_iff.mp h
    obtain ⟨ht, hselected⟩ := Option.filter_eq_some_iff.mp ht
    obtain ⟨ht, hphase⟩ := System.inPhase_eq_some.mp ht
    simp only [System.selected, Bool.and_eq_true, Option.isNone_iff_eq_none] at hselected
    refine .count ht hphase fun selection => ?_
    cases selection with
    | delete => exact hselected.1
    | lease => exact hselected.2
  | lockCounter tid =>
    obtain ⟨t, ht, hlock⟩ := Option.bind_eq_some_iff.mp h
    obtain ⟨ht, hphase⟩ := System.inPhase_eq_some.mp ht
    unfold System.lockCounter at hlock
    split at hlock
    · simp at hlock
    · rename_i key rest hnext
      split at hlock
      · simp at hlock
      · rename_i hfree
        obtain rfl := Option.some.inj hlock
        exact .lockCounter ht hphase hnext (by simpa using hfree)
  | commit tid =>
    obtain ⟨t, ht, rfl⟩ := Option.map_eq_some_iff.mp h
    obtain ⟨ht, hcounters⟩ := Option.filter_eq_some_iff.mp ht
    obtain ⟨ht, hphase⟩ := System.inPhase_eq_some.mp ht
    exact .commit ht hphase (by simpa using hcounters)
  | abort tid =>
    obtain ⟨t, ht, rfl⟩ := Option.map_eq_some_iff.mp h
    obtain ⟨ht, hactive⟩ := Option.filter_eq_some_iff.mp ht
    exact .abort ht (by simpa using hactive)

/-- The states that transactions reach from the empty database, in any interleaving. -/
def Reachable (order : TriggerOrder) (s : System) : Prop :=
  Execution (step order) anyAction .initial s

theorem Reachable.step {order : TriggerOrder} {s s' : System} (h : Reachable order s) {a : Action}
    (hstep : Retsu.step order s a = some s') : Reachable order s' :=
  Execution.step h trivial hstep

/-! ## Values for examples -/

/-- The state after some actions. -/
def runActions (order : TriggerOrder) (actions : List Action) : Option System :=
  runAllowed (step order) anyAction .initial actions

theorem reachable_of_runActions {order : TriggerOrder} {actions : List Action} {s : System}
    (h : runActions order actions = some s) : Reachable order s :=
  execution_of_runAllowed h

/-- The steps of a transaction: its visits, and how many counter rows its triggers lock. -/
def transaction (tid : Nat) (op : Operation) (visits : List Selection) (counters : Nat) :
    List Action :=
  [.start tid op, .snapshot tid] ++ visits.map (.visit tid) ++ [.count tid] ++
    List.replicate counters (.lockCounter tid) ++ [.commit tid]

/-- A queue with one message, of transactions that run alone. -/
def oneOrder (maxDeliveryAttempts : UInt16) (h : maxDeliveryAttemptsInRange maxDeliveryAttempts) :
    List Action :=
  transaction 0 (.createQueue (ordersQueue maxDeliveryAttempts h)) [] 0 ++
    transaction 1 (.enqueueMessage 1 (orderMessage 7) 60) [] 1

end Retsu
