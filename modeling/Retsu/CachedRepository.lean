/-
  `L1QueueRepository(L2QueueRepository(PostgresQueueRepository))`, await by await.

  Any number of processes call the repository; each has its own names (L1), and all share the
  details in the distributed cache (L2) and the database.  A call stops at every `await`, and one
  step of the system completes one await of one call: a database statement, a cache command, or
  the local cache.  Between the steps entries are evicted and time passes.

  What a call answers is compared with `MetadataOp.run`.
-/
import Retsu.Concurrency.Execution
import Retsu.DistributedCache
import Retsu.QueueMetadata

namespace Retsu

open Relational Concurrency

/-! ## Calls -/

/-- Which caches are there: the names in each process, the details for all processes or for none. -/
structure CacheConfig where
  inMemory : Nat → Bool
  distributed : Bool

/-- The await a call is at. -/
inductive CallPhase
  /-- `get_or_load` of the names in the process. -/
  | lookup
  /-- Another call of the process is loading this name. -/
  | joined (loader : Nat)
  /-- PostgreSQL; nothing is cached afterwards unless the call writes. -/
  | database (op : MetadataOp)
  /-- The first `GET`. -/
  | get
  /-- `SET NX` of the loading marker. -/
  | lock
  /-- The `GET` of the call that has the marker. -/
  | recheck
  /-- The `GET` after `LOAD_RETRY_INTERVAL`, of a call that does not have it. -/
  | waiting
  /-- `load_and_cache`: PostgreSQL. -/
  | load
  /-- `load_and_cache`: the `SET`. -/
  | populate (value : CachedQueueDetails)
  /-- The `SET` of `create_queue` and `update_queue`. -/
  | writeThrough (response : MetadataResponse) (details : QueueDetails)
  /-- L2 has answered and L1 has not. -/
  | returning (response : MetadataResponse)
  | done (response : MetadataResponse)

/-- What a call has answered. -/
def CallPhase.response : CallPhase → Option MetadataResponse
  | done response => some response
  | _ => none

theorem CallPhase.response_eq_some {phase : CallPhase} {response : MetadataResponse} :
    phase.response = some response ↔ phase = .done response := by
  cases phase <;> simp [CallPhase.response]

/-- A step of the system, and the time of the distributed cache then. -/
structure Moment where
  step : Nat
  clock : Int
deriving DecidableEq, Repr

/-- When a call did what; no step depends on it. -/
structure CallTimes where
  started : Moment
  /-- Its statement in PostgreSQL. -/
  database : Option Moment
  databaseFailed : Bool
  /-- Its `SET` of a queue's details, if it took effect. -/
  cached : Option Moment
  /-- The `GET` that answered it, and the call that had set the entry. -/
  hit : Option (Moment × Nat)
  returned : Option Moment
deriving DecidableEq, Repr

structure MetadataCall where
  process : Nat
  op : MetadataOp
  phase : CallPhase
  times : CallTimes

/-- The phases of a call before L2 has asked anybody. -/
def CacheConfig.sourcePhase (config : CacheConfig) : MetadataOp → CallPhase
  | .createQueue queue => .database (.createQueue queue)
  | .updateQueue queueId configuration => .database (.updateQueue queueId configuration)
  | .queueName queueId => if config.distributed then .get else .database (.queueName queueId)
  | .queueDetails queueId => if config.distributed then .get else .database (.queueDetails queueId)

def CacheConfig.firstPhase (config : CacheConfig) (process : Nat) : MetadataOp → CallPhase
  | .queueName queueId =>
    if config.inMemory process then .lookup else config.sourcePhase (.queueName queueId)
  | op => config.sourcePhase op

/-- L2's answer to a read, for the details it has found. -/
def MetadataOp.answer (op : MetadataOp) (details : Option QueueDetails) : MetadataResponse :=
  match op with
  | .queueName _ => .queueName (details.map (·.name))
  | _ => .queueDetails details

/-- What L2 does with the answer of PostgreSQL. -/
def CacheConfig.afterDatabase (config : CacheConfig) (op : MetadataOp)
    (response : MetadataResponse) : CallPhase :=
  match op, response with
  | .createQueue queue, .createQueue .created =>
    if config.distributed then .writeThrough response queue.details else .returning response
  | .updateQueue _ _, .updateQueue (some details) =>
    if config.distributed then .writeThrough response details else .returning response
  | op, .queueDetails details => .returning (op.answer details)
  | _, response => .returning response

/-- What `load_and_cache` does with it. -/
def afterLoad : MetadataResponse → CallPhase
  | .queueDetails (some details) => .populate (.found details)
  | .queueDetails none => .populate .missing
  | response => .returning response

/-- The name that L1 keeps of an answer. -/
def MetadataOp.remembers (op : MetadataOp) (response : MetadataResponse) :
    Option (Uuid × String) :=
  match op, response with
  | .createQueue queue, .createQueue .created => some (queue.id, queue.name.asStr)
  | .updateQueue _ _, .updateQueue (some details) => some (details.id, details.name)
  | .queueName queueId, .queueName (some name) => some (queueId, name)
  | _, _ => none

/-- What L1 answers. -/
def MetadataOp.outer (op : MetadataOp) (response : MetadataResponse) : MetadataResponse :=
  match op, response with
  | .queueName _, .failed error => .failed (.loadQueueName error)
  | _, response => response

/-! ## The system -/

structure ChainState where
  db : Database
  /-- The names that each process has. -/
  names : Nat → Uuid → Option String
  /-- The calls that load a name, in each process. -/
  loaders : Nat → Uuid → Option Nat
  store : CacheStore
  /-- The time of the distributed cache. -/
  clock : Int
  calls : Nat → Option MetadataCall
  /-- The number of steps so far. -/
  time : Nat
  /-- The configuration of the queues after each step. -/
  past : Nat → Uuid → Option QueueDetails

/-- How an await ends: whether it succeeds, and if not, whether the cache has executed the command
    all the same; a statement that fails has changed nothing. -/
structure AwaitOutcome where
  ok : Bool
  executed : Bool
  /-- `CURRENT_TIMESTAMP`. -/
  now : Int
deriving DecidableEq, Repr

namespace ChainState

def start (db : Database) : ChainState where
  db := db
  names _ _ := none
  loaders _ _ := none
  store := .empty
  clock := 0
  calls _ := none
  time := 0
  past _ := db.details

def setCall (s : ChainState) (id : Nat) (call : MetadataCall) : ChainState :=
  { s with calls := fun i => if i = id then some call else s.calls i }

def setName (s : ChainState) (process : Nat) (queueId : Uuid) (name : Option String) : ChainState :=
  { s with names := fun p q => if p = process ∧ q = queueId then name else s.names p q }

def setLoader (s : ChainState) (process : Nat) (queueId : Uuid) (loader : Option Nat) :
    ChainState :=
  { s with loaders := fun p q => if p = process ∧ q = queueId then loader else s.loaders p q }

/-- The moment of the next step. -/
def moment (s : ChainState) : Moment := ⟨s.time + 1, s.clock⟩

/-- Counts the step. -/
def advance (s : ChainState) : ChainState :=
  { s with
    time := s.time + 1
    past := fun n => if n = s.time + 1 then s.db.details else s.past n }

/-- `L2QueueRepository::read`, and where the call goes on after a miss. -/
def read (s : ChainState) (id : Nat) (call : MetadataCall) (outcome : AwaitOutcome)
    (missed : CallPhase) : ChainState :=
  let queueId := call.op.queueId
  if outcome.ok then
    match s.store.get s.clock (detailsKey queueId) with
    | none => s.setCall id { call with phase := missed }
    | some e =>
      match e.value with
      | .queueDetails value => s.setCall id { call with
          phase := .returning (call.op.answer value.intoDetails)
          times := { call.times with hit := some (s.moment, e.setBy) } }
      | .loadLock => s.setCall id { call with phase := .database (.queueDetails queueId) }
  else s.setCall id { call with phase := .database (.queueDetails queueId) }

/-- A statement of PostgreSQL, and where the call goes on. -/
def query (s : ChainState) (id : Nat) (call : MetadataCall) (outcome : AwaitOutcome)
    (op : MetadataOp) (next : MetadataResponse → CallPhase) : ChainState :=
  if outcome.ok then
    let (db, response) := op.run s.db outcome.now
    { s with db }.setCall id { call with
      phase := next response
      times := { call.times with database := some s.moment } }
  else s.setCall id { call with
    phase := .returning (.failed .unavailable)
    times := { call.times with databaseFailed := true } }

/-- The `SET` of a queue's details; a failure is logged. -/
def write (s : ChainState) (id : Nat) (call : MetadataCall) (outcome : AwaitOutcome)
    (queueId : Uuid) (value : CachedQueueDetails) (response : MetadataResponse) : ChainState :=
  let entry : CacheEntry := ⟨.queueDetails value, s.clock + value.ttl, id⟩
  if outcome.ok || outcome.executed then
    { s with store := s.store.set (detailsKey queueId) entry }.setCall id { call with
      phase := .returning response
      times := { call.times with cached := some s.moment } }
  else s.setCall id { call with phase := .returning response }

/-- `SET NX` of the loading marker. -/
def lock (s : ChainState) (id : Nat) (call : MetadataCall) (outcome : AwaitOutcome) : ChainState :=
  let key := loadLockKey call.op.queueId
  let store := if outcome.ok || outcome.executed then
      s.store.setIfAbsent s.clock key ⟨.loadLock, s.clock + loadLockTtl, id⟩
    else s.store
  let phase : CallPhase :=
    if outcome.ok then if (s.store.get s.clock key).isNone then .recheck else .waiting
    else .database (.queueDetails call.op.queueId)
  { s with store }.setCall id { call with phase }

/-- L1 keeps the name of an answer. -/
def remember (s : ChainState) (call : MetadataCall) (response : MetadataResponse) : ChainState :=
  match call.op.remembers response with
  | some (queueId, name) => s.setName call.process queueId (some name)
  | none => s

/-- The load of a name ends. -/
def endLoad (s : ChainState) (call : MetadataCall) : ChainState :=
  match call.op with
  | .queueName queueId => s.setLoader call.process queueId none
  | _ => s

/-- L1's part after L2 has answered. -/
def finish (config : CacheConfig) (s : ChainState) (id : Nat) (call : MetadataCall)
    (response : MetadataResponse) : ChainState :=
  let times := { call.times with returned := some s.moment }
  if config.inMemory call.process then
    ((s.remember call response).endLoad call).setCall id
      { call with phase := .done (call.op.outer response), times }
  else s.setCall id { call with phase := .done response, times }

/-- One await of a call. -/
def await (config : CacheConfig) (s : ChainState) (id : Nat) (call : MetadataCall)
    (outcome : AwaitOutcome) : Option ChainState :=
  match call.phase with
  | .lookup =>
    match s.names call.process call.op.queueId, s.loaders call.process call.op.queueId with
    | some name, _ => some (s.setCall id { call with
        phase := .done (.queueName (some name))
        times := { call.times with returned := some s.moment } })
    | none, some loader => some (s.setCall id { call with phase := .joined loader })
    | none, none => some ((s.setLoader call.process call.op.queueId (some id)).setCall id
        { call with phase := config.sourcePhase call.op })
  | .joined loader =>
    match (s.calls loader).map MetadataCall.phase with
    | some (.done response) => some (s.setCall id { call with
        phase := .done response
        times := { call.times with returned := some s.moment } })
    | _ => none
  | .database op => some (s.query id call outcome op (config.afterDatabase call.op))
  | .get => some (s.read id call outcome .lock)
  | .lock => some (s.lock id call outcome)
  | .recheck => some (s.read id call outcome .load)
  | .waiting => some (s.read id call outcome .lock)
  | .load => some (s.query id call outcome (.queueDetails call.op.queueId) afterLoad)
  | .populate value =>
    some (s.write id call outcome call.op.queueId value (call.op.answer value.intoDetails))
  | .writeThrough response details =>
    some (s.write id call outcome details.id (.found details) response)
  | .returning response => some (s.finish config id call response)
  | .done _ => none

end ChainState

inductive ChainAction
  | start (id process : Nat) (op : MetadataOp)
  | await (id : Nat) (outcome : AwaitOutcome)
  /-- Milliseconds pass. -/
  | elapse (duration : Nat)
  | evict (key : String)
  | evictName (process : Nat) (queueId : Uuid)

/-- The state in which a call has started. -/
def ChainState.begin (config : CacheConfig) (s : ChainState) (id process : Nat) (op : MetadataOp) :
    ChainState :=
  s.setCall id ⟨process, op, config.firstPhase process op, ⟨s.moment, none, false, none, none, none⟩⟩

def ChainState.act (config : CacheConfig) (s : ChainState) : ChainAction → Option ChainState
  | .start id process op => if (s.calls id).isNone then some (s.begin config id process op) else none
  | .await id outcome => (s.calls id).bind fun call => s.await config id call outcome
  | .elapse duration => some { s with clock := s.clock + duration }
  | .evict key => some { s with store := s.store.evict key }
  | .evictName process queueId => some (s.setName process queueId none)

/-- One step. -/
def ChainState.step (config : CacheConfig) (s : ChainState) (a : ChainAction) : Option ChainState :=
  (s.act config a).map advance

/-! ## What a step can do -/

/-- The call is at a `GET`; where it goes on after a miss. -/
inductive CallPhase.Reads : CallPhase → CallPhase → Prop
  | get : Reads .get .lock
  | recheck : Reads .recheck .load
  | waiting : Reads .waiting .lock

/-- The call is at a statement of PostgreSQL; what the answer leads to. -/
inductive MetadataCall.Queries (config : CacheConfig) (c : MetadataCall) :
    MetadataOp → (MetadataResponse → CallPhase) → Prop
  | database {op : MetadataOp} (hphase : c.phase = .database op) :
      Queries config c op (config.afterDatabase c.op)
  | load (hphase : c.phase = .load) : Queries config c (.queueDetails c.op.queueId) afterLoad

/-- The call is at the `SET` of a queue's details. -/
inductive MetadataCall.Writes (c : MetadataCall) :
    Uuid → CachedQueueDetails → MetadataResponse → Prop
  | populate {value : CachedQueueDetails} (hphase : c.phase = .populate value) :
      Writes c c.op.queueId value (c.op.answer value.intoDetails)
  | writeThrough {response : MetadataResponse} {details : QueueDetails}
      (hphase : c.phase = .writeThrough response details) :
      Writes c details.id (.found details) response

/-- What an await of the call `c` can do. -/
inductive AwaitStep (config : CacheConfig) (s : ChainState) (id : Nat) (c : MetadataCall)
    (outcome : AwaitOutcome) : ChainState → Prop
  | known {name : String} (hphase : c.phase = .lookup)
      (hname : s.names c.process c.op.queueId = some name) :
      AwaitStep config s id c outcome (s.setCall id { c with
        phase := .done (.queueName (some name))
        times := { c.times with returned := some s.moment } })
  | joins {loader : Nat} (hphase : c.phase = .lookup)
      (hname : s.names c.process c.op.queueId = none)
      (hloader : s.loaders c.process c.op.queueId = some loader) :
      AwaitStep config s id c outcome (s.setCall id { c with phase := .joined loader })
  | loads (hphase : c.phase = .lookup) (hname : s.names c.process c.op.queueId = none)
      (hloader : s.loaders c.process c.op.queueId = none) :
      AwaitStep config s id c outcome
        ((s.setLoader c.process c.op.queueId (some id)).setCall id
          { c with phase := config.sourcePhase c.op })
  | shared {loader : Nat} {d : MetadataCall} {response : MetadataResponse}
      (hphase : c.phase = .joined loader) (hloader : s.calls loader = some d)
      (hdone : d.phase = .done response) :
      AwaitStep config s id c outcome (s.setCall id { c with
        phase := .done response
        times := { c.times with returned := some s.moment } })
  | queried {op : MetadataOp} {next : MetadataResponse → CallPhase}
      (hqueries : c.Queries config op next) (hok : outcome.ok = true) :
      AwaitStep config s id c outcome ({ s with db := (op.run s.db outcome.now).1 }.setCall id { c with
        phase := next (op.run s.db outcome.now).2
        times := { c.times with database := some s.moment } })
  | unavailable {op : MetadataOp} {next : MetadataResponse → CallPhase}
      (hqueries : c.Queries config op next) (hok : outcome.ok = false) :
      AwaitStep config s id c outcome (s.setCall id { c with
        phase := .returning (.failed .unavailable)
        times := { c.times with databaseFailed := true } })
  | hit {missed : CallPhase} {e : CacheEntry} {value : CachedQueueDetails}
      (hreads : c.phase.Reads missed) (hok : outcome.ok = true)
      (hget : s.store.get s.clock (detailsKey c.op.queueId) = some e)
      (hvalue : e.value = .queueDetails value) :
      AwaitStep config s id c outcome (s.setCall id { c with
        phase := .returning (c.op.answer value.intoDetails)
        times := { c.times with hit := some (s.moment, e.setBy) } })
  | missed {missed : CallPhase} (hreads : c.phase.Reads missed) (hok : outcome.ok = true)
      (hget : s.store.get s.clock (detailsKey c.op.queueId) = none) :
      AwaitStep config s id c outcome (s.setCall id { c with phase := missed })
  | degraded {missed : CallPhase} (hreads : c.phase.Reads missed)
      (hread : outcome.ok = false ∨ ∃ e, s.store.get s.clock (detailsKey c.op.queueId) = some e ∧
        e.value = .loadLock) :
      AwaitStep config s id c outcome
        (s.setCall id { c with phase := .database (.queueDetails c.op.queueId) })
  | locks (hphase : c.phase = .lock) : AwaitStep config s id c outcome (s.lock id c outcome)
  | wrote {queueId : Uuid} {value : CachedQueueDetails} {response : MetadataResponse}
      (hwrites : c.Writes queueId value response)
      (heffect : outcome.ok = true ∨ outcome.executed = true) :
      AwaitStep config s id c outcome ({ s with
          store := s.store.set (detailsKey queueId)
            ⟨.queueDetails value, s.clock + value.ttl, id⟩ }.setCall id { c with
        phase := .returning response
        times := { c.times with cached := some s.moment } })
  | notWritten {queueId : Uuid} {value : CachedQueueDetails} {response : MetadataResponse}
      (hwrites : c.Writes queueId value response) (hok : outcome.ok = false)
      (hexecuted : outcome.executed = false) :
      AwaitStep config s id c outcome (s.setCall id { c with phase := .returning response })
  | finishes {response : MetadataResponse} (hphase : c.phase = .returning response) :
      AwaitStep config s id c outcome (s.finish config id c response)

variable {config : CacheConfig} {s s' : ChainState} {id : Nat} {c : MetadataCall}
  {outcome : AwaitOutcome}

theorem AwaitStep.of_read {missed : CallPhase} (hreads : c.phase.Reads missed) :
    AwaitStep config s id c outcome (s.read id c outcome missed) := by
  unfold ChainState.read
  by_cases hok : outcome.ok = true
  · simp only [hok, if_true]
    split
    · rename_i hget
      exact .missed hreads hok hget
    · rename_i e hget
      split
      · rename_i value hvalue
        exact .hit hreads hok hget hvalue
      · rename_i hvalue
        exact .degraded hreads (Or.inr ⟨e, hget, hvalue⟩)
  · rw [Bool.not_eq_true] at hok
    simp only [hok, Bool.false_eq_true, if_false]
    exact .degraded hreads (Or.inl hok)

theorem AwaitStep.of_query {op : MetadataOp} {next : MetadataResponse → CallPhase}
    (hqueries : c.Queries config op next) :
    AwaitStep config s id c outcome (s.query id c outcome op next) := by
  unfold ChainState.query
  by_cases hok : outcome.ok = true
  · rw [if_pos hok]
    exact .queried hqueries hok
  · rw [if_neg hok]
    exact .unavailable hqueries (by simpa using hok)

theorem AwaitStep.of_write {queueId : Uuid} {value : CachedQueueDetails}
    {response : MetadataResponse} (hwrites : c.Writes queueId value response) :
    AwaitStep config s id c outcome (s.write id c outcome queueId value response) := by
  unfold ChainState.write
  by_cases heffect : (outcome.ok || outcome.executed) = true
  · rw [if_pos heffect]
    exact .wrote hwrites ((Bool.or_eq_true _ _).mp heffect)
  · rw [if_neg heffect]
    rw [Bool.or_eq_true, not_or, Bool.not_eq_true, Bool.not_eq_true] at heffect
    exact .notWritten hwrites heffect.1 heffect.2

/-- **Every await is one of these.** -/
theorem await_cases (h : s.await config id c outcome = some s') :
    AwaitStep config s id c outcome s' := by
  unfold ChainState.await at h
  split at h
  · rename_i hphase
    split at h <;> obtain rfl := Option.some.inj h
    · rename_i name hname
      exact .known hphase hname
    · rename_i loader hname hloader
      exact .joins hphase hname hloader
    · rename_i hname hloader
      exact .loads hphase hname hloader
  · rename_i loader hphase
    split at h
    · rename_i response hdone
      obtain rfl := Option.some.inj h
      obtain ⟨d, hloader, hdone⟩ := Option.map_eq_some_iff.mp hdone
      exact .shared hphase hloader hdone
    · simp at h
  · rename_i op hphase
    exact Option.some.inj h ▸ .of_query (.database hphase)
  · rename_i hphase
    exact Option.some.inj h ▸ .of_read (hphase ▸ .get)
  · rename_i hphase
    exact Option.some.inj h ▸ .locks hphase
  · rename_i hphase
    exact Option.some.inj h ▸ .of_read (hphase ▸ .recheck)
  · rename_i hphase
    exact Option.some.inj h ▸ .of_read (hphase ▸ .waiting)
  · rename_i hphase
    exact Option.some.inj h ▸ .of_query (.load hphase)
  · rename_i value hphase
    exact Option.some.inj h ▸ .of_write (.populate hphase)
  · rename_i response details hphase
    exact Option.some.inj h ▸ .of_write (.writeThrough hphase)
  · rename_i response hphase
    exact Option.some.inj h ▸ .finishes hphase
  · simp at h

/-- The `SET NX`, taken apart: no details change, and the call goes on. -/
theorem lock_eq (s : ChainState) (id : Nat) (c : MetadataCall) (outcome : AwaitOutcome) :
    ∃ store phase, s.lock id c outcome = { s with store }.setCall id { c with phase } ∧
      (∀ q, store (detailsKey q) = s.store (detailsKey q)) ∧
      (phase = .recheck ∨ phase = .waiting ∨ phase = .database (.queueDetails c.op.queueId)) := by
  refine ⟨_, _, rfl, fun q => ?_, ?_⟩
  · split
    · exact CacheStore.setIfAbsent_other (detailsKey_ne_loadLockKey q _)
    · rfl
  · split
    · split
      · exact Or.inl rfl
      · exact Or.inr (Or.inl rfl)
    · exact Or.inr (Or.inr rfl)

/-- L1's part, taken apart: it may keep a name, it ends its load, and it answers. -/
theorem finish_eq (config : CacheConfig) (s : ChainState) (id : Nat) (c : MetadataCall)
    (response : MetadataResponse) :
    ∃ names loaders answer, s.finish config id c response =
        { s with names, loaders }.setCall id { c with
          phase := .done answer
          times := { c.times with returned := some s.moment } } ∧
      (answer = response ∨ answer = c.op.outer response) ∧
      (∀ p q, names p q = s.names p q ∨
        ∃ name, c.op.remembers response = some (q, name) ∧ names p q = some name) ∧
      ∀ p q, loaders p q ≠ none → s.loaders p q ≠ none ∧
        ¬(config.inMemory c.process = true ∧ p = c.process ∧ c.op = .queueName q) := by
  unfold ChainState.finish
  by_cases hmemory : config.inMemory c.process = true
  · rw [if_pos hmemory]
    obtain ⟨names, hnames, hkept⟩ : ∃ names, s.remember c response = { s with names } ∧
        ∀ p q, names p q = s.names p q ∨
          ∃ name, c.op.remembers response = some (q, name) ∧ names p q = some name := by
      unfold ChainState.remember
      cases c.op.remembers response with
      | none => exact ⟨s.names, rfl, fun _ _ => Or.inl rfl⟩
      | some known =>
        obtain ⟨queueId, name⟩ := known
        refine ⟨_, rfl, fun p q => ?_⟩
        by_cases hthis : p = c.process ∧ q = queueId
        · exact Or.inr ⟨name, by rw [hthis.2], if_pos hthis⟩
        · exact Or.inl (if_neg hthis)
    rw [hnames]
    obtain ⟨loaders, hloaders, hended⟩ : ∃ loaders,
        ({ s with names } : ChainState).endLoad c = { s with names, loaders } ∧
          ∀ p q, loaders p q ≠ none → s.loaders p q ≠ none ∧
            ¬(config.inMemory c.process = true ∧ p = c.process ∧ c.op = .queueName q) := by
      unfold ChainState.endLoad
      cases c.op with
      | queueName queueId =>
        refine ⟨_, rfl, fun p q hloader => ?_⟩
        by_cases hthis : p = c.process ∧ q = queueId
        · exact absurd (if_pos hthis) hloader
        · rw [if_neg hthis] at hloader
          exact ⟨hloader, fun hsame => hthis ⟨hsame.2.1, (MetadataOp.queueName.inj hsame.2.2).symm⟩⟩
      | createQueue | queueDetails | updateQueue =>
        exact ⟨s.loaders, rfl, fun p q hloader => ⟨hloader, by simp⟩⟩
    rw [hloaders]
    exact ⟨names, loaders, _, rfl, Or.inr rfl, hkept, hended⟩
  · rw [if_neg hmemory]
    exact ⟨s.names, s.loaders, response, rfl, Or.inl rfl, fun _ _ => Or.inl rfl,
      fun p q hloader => ⟨hloader, fun hthis => hmemory hthis.1⟩⟩

/-- An await leaves the other calls alone. -/
theorem AwaitStep.others (h : AwaitStep config s id c outcome s') {other : Nat} (hne : other ≠ id) :
    s'.calls other = s.calls other := by
  have hset : ∀ (t : ChainState) (c' : MetadataCall), t.calls = s.calls →
      (t.setCall id c').calls other = s.calls other :=
    fun t c' hcalls => (if_neg hne).trans (congrFun hcalls other)
  cases h with
  | locks hphase =>
    obtain ⟨store, phase, hlock, -⟩ := lock_eq s id c outcome
    rw [hlock]
    exact hset _ _ rfl
  | @finishes response hphase =>
    obtain ⟨names, loaders, answer, hfinish, -⟩ := finish_eq config s id c response
    rw [hfinish]
    exact hset _ _ rfl
  | known | joins | loads | shared | queried | unavailable | hit | missed | degraded | wrote
  | notWritten => exact hset _ _ rfl

/-! ## Progress -/

/-- How many awaits are left at most, when no other call has the loading marker. -/
def CallPhase.remaining : CallPhase → Nat
  | lookup => 7
  | get | waiting => 6
  | lock => 5
  | recheck => 4
  | load | database _ => 3
  | populate _ | writeThrough _ _ => 2
  | returning _ | joined _ => 1
  | done _ => 0

/-- The loading marker of the queue is not there, or it has expired. -/
def ChainState.Unmarked (s : ChainState) (queueId : Uuid) : Prop :=
  s.store.get s.clock (loadLockKey queueId) = none

theorem CacheConfig.afterDatabase_remaining {op : MetadataOp} {response : MetadataResponse} :
    (config.afterDatabase op response).remaining < 3 := by
  unfold CacheConfig.afterDatabase
  split
  · split <;> simp [CallPhase.remaining]
  · split <;> simp [CallPhase.remaining]
  · simp [CallPhase.remaining]
  · simp [CallPhase.remaining]

theorem afterLoad_remaining {response : MetadataResponse} : (afterLoad response).remaining < 3 := by
  unfold afterLoad
  split <;> simp [CallPhase.remaining]

theorem CacheConfig.sourcePhase_remaining {op : MetadataOp} :
    (config.sourcePhase op).remaining < 7 := by
  cases op with
  | createQueue | updateQueue => simp [CacheConfig.sourcePhase, CallPhase.remaining]
  | queueName | queueDetails =>
    simp only [CacheConfig.sourcePhase]
    split <;> simp [CallPhase.remaining]

theorem CallPhase.Reads.remaining {phase missed : CallPhase} (h : phase.Reads missed) :
    missed.remaining < phase.remaining ∧ 3 < phase.remaining := by
  cases h <;> simp [CallPhase.remaining]

theorem MetadataCall.Queries.remaining {query : MetadataOp} {next : MetadataResponse → CallPhase}
    (h : c.Queries config query next) (response : MetadataResponse) :
    c.phase.remaining = 3 ∧ (next response).remaining < 3 := by
  cases h with
  | database hphase => exact ⟨by rw [hphase]; rfl, config.afterDatabase_remaining⟩
  | load hphase => exact ⟨by rw [hphase]; rfl, afterLoad_remaining⟩

theorem MetadataCall.Writes.remaining {queueId : Uuid} {value : CachedQueueDetails}
    {response : MetadataResponse} (h : c.Writes queueId value response) : c.phase.remaining = 2 := by
  cases h with
  | populate hphase | writeThrough hphase =>
    rw [hphase]
    rfl

/-- **An await brings the call closer to its answer, unless another call has the marker.** -/
theorem AwaitStep.progress (h : AwaitStep config s id c outcome s')
    (hmarker : c.phase.remaining < 5 ∨ s.Unmarked c.op.queueId) :
    ∃ c', s'.calls id = some c' ∧ c'.op = c.op ∧ c'.phase.remaining < c.phase.remaining ∧
      (c'.phase.remaining < 5 ∨ s'.Unmarked c.op.queueId) := by
  -- an await that leaves the marker and the time alone
  have hmove : ∀ c' : MetadataCall, c'.op = c.op → c'.phase.remaining < c.phase.remaining →
      ∀ t : ChainState, t.store = s.store → t.clock = s.clock →
      ∃ c'', (t.setCall id c').calls id = some c'' ∧ c''.op = c.op ∧
        c''.phase.remaining < c.phase.remaining ∧
        (c''.phase.remaining < 5 ∨ (t.setCall id c').Unmarked c.op.queueId) := by
    intro c' hop hless t hstore hclock
    refine ⟨c', if_pos rfl, hop, hless, hmarker.imp (fun hpast => by omega) fun hfree => ?_⟩
    show t.store.get t.clock _ = none
    rw [hstore, hclock]
    exact hfree
  have hanswer : ∀ phase : CallPhase, phase.remaining < 2 → 2 ≤ c.phase.remaining →
      ∀ (times : CallTimes) (t : ChainState),
      ∃ c'', (t.setCall id ⟨c.process, c.op, phase, times⟩).calls id = some c'' ∧ c''.op = c.op ∧
        c''.phase.remaining < c.phase.remaining ∧ (c''.phase.remaining < 5 ∨
          (t.setCall id ⟨c.process, c.op, phase, times⟩).Unmarked c.op.queueId) := by
    intro phase hphase hthis times t
    exact ⟨_, if_pos rfl, rfl, lt_of_lt_of_le hphase hthis, Or.inl (by show phase.remaining < 5; omega)⟩
  cases h with
  | known hphase | joins hphase =>
    exact hanswer _ (by simp [CallPhase.remaining]) (by simp [hphase, CallPhase.remaining]) _ _
  | shared hphase =>
    exact hmove ⟨_, _, .done _, _⟩ rfl (by simp [hphase, CallPhase.remaining]) _ rfl rfl
  | loads hphase =>
    refine hmove ⟨_, _, config.sourcePhase c.op, _⟩ rfl ?_ (s.setLoader _ _ _) rfl rfl
    rw [hphase]
    exact config.sourcePhase_remaining
  | @queried query next hqueries =>
    obtain ⟨hthis, hnext⟩ := hqueries.remaining (query.run s.db outcome.now).2
    exact hmove ⟨_, _, next (query.run s.db outcome.now).2, _⟩ rfl (hthis ▸ hnext)
      { s with db := (query.run s.db outcome.now).1 } rfl rfl
  | unavailable hqueries =>
    obtain ⟨hthis, -⟩ := hqueries.remaining (.failed .unavailable)
    exact hanswer _ (by simp [CallPhase.remaining]) (by omega) _ _
  | hit hreads =>
    obtain ⟨-, hthis⟩ := hreads.remaining
    exact hanswer _ (by simp [CallPhase.remaining]) (by omega) _ _
  | @missed missed hreads =>
    obtain ⟨hnext, -⟩ := hreads.remaining
    exact hmove ⟨_, _, missed, _⟩ rfl hnext s rfl rfl
  | degraded hreads =>
    obtain ⟨-, hthis⟩ := hreads.remaining
    exact hmove ⟨_, _, .database _, _⟩ rfl hthis s rfl rfl
  | locks hphase =>
    have hfree : s.store.get s.clock (loadLockKey c.op.queueId) = none :=
      hmarker.resolve_left (by simp [hphase, CallPhase.remaining])
    unfold ChainState.lock
    simp only [hfree, Option.isNone_none, if_true]
    refine ⟨_, if_pos rfl, rfl, ?_, Or.inl ?_⟩
    · rw [hphase]
      split <;> simp [CallPhase.remaining]
    · show CallPhase.remaining (if _ then _ else _) < 5
      split <;> simp [CallPhase.remaining]
  | wrote hwrites | notWritten hwrites =>
    exact hanswer _ (by simp [CallPhase.remaining]) hwrites.remaining.ge _ _
  | @finishes response hphase =>
    obtain ⟨names, loaders, answer, hfinish, -⟩ := finish_eq config s id c response
    rw [hfinish]
    exact hmove ⟨_, _, .done answer, _⟩ rfl (by simp [hphase, CallPhase.remaining])
      { s with names, loaders } rfl rfl

/-- A call that is neither answered nor waiting for another call can go on. -/
theorem await_enabled (hdone : ∀ response, c.phase ≠ .done response)
    (hjoined : ∀ loader, c.phase ≠ .joined loader) : ∃ s', s.await config id c outcome = some s' := by
  unfold ChainState.await
  split
  · split <;> exact ⟨_, rfl⟩
  · rename_i loader hphase
    exact absurd hphase (hjoined loader)
  all_goals first | exact ⟨_, rfl⟩ | skip
  rename_i response hphase
  exact absurd hphase (hdone response)

end Retsu
