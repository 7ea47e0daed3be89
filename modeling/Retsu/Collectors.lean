/-
  The state-metrics collectors: who leads, and what they report.

  Any number of processes run the worker `state-metrics-collector`.  Each has a pool of
  connections to the same PostgreSQL; a connection is one session of the server, and the session
  is what holds the advisory lock.  The worker, its pool, the sessions and what is under way on
  the wire between them each have a state of their own, because each of them can end first: the
  worker is cancelled while a statement runs, a process crashes, the server loses a session whose
  reply has already been sent.  A worker that stops waiting drops its connection; the statement it
  has sent stays sent.

  Every step is recorded with the lock, the database and the clock after it.  A snapshot can thus
  be held against the time at which its query ran.
-/
import Retsu.StateCollector
import Retsu.Concurrency.Execution
import Retsu.Concurrency.SessionLock

namespace Retsu

open Concurrency

/-! ## Connections and leases -/

/-- `sqlx::pool::PoolConnection`. -/
structure PoolConnection (σ : Type) where
  session : σ
  closeOnDrop : Bool

/-- A lease is made of a connection that has been marked `close_on_drop`. -/
structure QueueStateCollectorLease (σ : Type) where
  connection : PoolConnection σ
  marked : connection.closeOnDrop = true

/-- What `try_acquire_lease` makes of its connection when the reply is `true`. -/
def PoolConnection.lease {σ : Type} (c : PoolConnection σ) : QueueStateCollectorLease σ where
  connection := { c with closeOnDrop := true }
  marked := rfl

/-- Where the connection of a session is. -/
inductive ConnectionPlace (π : Type)
  /-- The session has not been opened. -/
  | absent
  /-- Idle in the pool of the process. -/
  | pooled (p : π)
  /-- With another borrower of the pool. -/
  | borrowed (p : π)
  /-- With the worker: in the acquiring call or in the lease. -/
  | worker (p : π)
  /-- Dropped for good: it is being closed, it is broken, or its process is gone. -/
  | closing
deriving DecidableEq

/-- What is left of it when the process is gone. -/
def ConnectionPlace.without {π : Type} [DecidableEq π] (place : ConnectionPlace π) (p : π) :
    ConnectionPlace π :=
  match place with
  | pooled q | borrowed q | worker q => if q = p then closing else place
  | absent | closing => place

/-! ## The wire -/

/-- One execution of the state query, with the times of its beginning and its end. -/
structure StateQuery where
  started : Nat
  finished : Nat
  result : Except RepositoryError (List QueuePriorityStateSnapshot)

/-- What is under way between a connection and its session. -/
inductive Wire
  | idle
  /-- `SELECT pg_try_advisory_lock($1, $2)` has been sent. -/
  | lockSent
  | lockReply (reply : Except String Bool)
  /-- The state query has been sent. -/
  | readSent
  /-- The server has begun with it, on the snapshot that gives the result. -/
  | reading (started : Nat) (result : Except RepositoryError (List QueuePriorityStateSnapshot))
  | readReply (reply : Except String StateQuery)

/-- The server has replied, and nobody has read the reply. -/
def Wire.replied : Wire → Bool
  | lockReply _ | readReply _ => true
  | idle | lockSent | readSent | reading _ _ => false

/-- A lock statement that has not been answered with `true`. -/
def Wire.ungranted : Wire → Bool
  | lockSent | lockReply (.ok false) | lockReply (.error _) => true
  | _ => false

/-! ## The worker -/

/-- The cause of a failed step: the statement, or a row that cannot be decoded. -/
inductive CollectorError
  | statement (text : String)
  | row (error : RepositoryError)

/-- An error of the worker, with the context it is returned in. -/
structure CollectorFailure where
  context : String
  source : CollectorError

def failedToAcquire (error : String) : CollectorFailure where
  context := "failed to acquire queue state metrics collector leadership"
  source := .statement error

def failedToRefresh (error : CollectorError) : CollectorFailure where
  context := "failed to refresh queue state metrics while holding leadership"
  source := error

/-- Where the worker awaits. -/
inductive CollectorPhase (σ : Type)
  /-- `wait_for_leadership`: the next tick. -/
  | waiting
  /-- `try_acquire_lease`: a connection. -/
  | connecting
  /-- `try_acquire_lease`: the reply to the attempt. -/
  | locking (c : PoolConnection σ)
  /-- `collect`: the next tick. -/
  | leading (lease : QueueStateCollectorLease σ)
  /-- `collect`: the result of the state query. -/
  | refreshing (lease : QueueStateCollectorLease σ)
  /-- `run` has returned. -/
  | stopped (result : Except CollectorFailure Unit)
  | crashed

namespace CollectorPhase

variable {σ : Type}

/-- The lease that the worker owns. -/
def lease : CollectorPhase σ → Option (QueueStateCollectorLease σ)
  | leading lease | refreshing lease => some lease
  | _ => none

/-- The connection that the worker has in its hands. -/
def connection : CollectorPhase σ → Option (PoolConnection σ)
  | locking c => some c
  | leading lease | refreshing lease => some lease.connection
  | _ => none

def session (phase : CollectorPhase σ) : Option σ := phase.connection.map (·.session)

theorem session_of_connection {phase : CollectorPhase σ} {k : PoolConnection σ}
    (h : phase.connection = some k) : phase.session = some k.session := by
  rw [session, h, Option.map_some]

theorem session_of_none {phase : CollectorPhase σ} (h : phase.connection = none) :
    phase.session = none := by
  rw [session, h, Option.map_none]

/-- The worker is in `wait_for_leadership`. -/
def seeks : CollectorPhase σ → Bool
  | waiting | connecting | locking _ => true
  | _ => false

/-- A lease is a connection in the worker's hands. -/
theorem connection_of_lease {phase : CollectorPhase σ} {lease : QueueStateCollectorLease σ}
    (h : phase.lease = some lease) : phase.connection = some lease.connection := by
  cases phase with
  | leading _ | refreshing _ =>
    obtain rfl := Option.some.inj h
    rfl
  | _ => cases h

/-- A connection in the worker's hands belongs to the acquiring call or to a lease. -/
theorem connection_cases {phase : CollectorPhase σ} {k : PoolConnection σ}
    (h : phase.connection = some k) :
    phase = .locking k ∨ ∃ lease, phase.lease = some lease ∧ lease.connection = k := by
  cases phase with
  | locking _ =>
    obtain rfl := Option.some.inj h
    exact .inl rfl
  | leading lease | refreshing lease => exact .inr ⟨lease, rfl, Option.some.inj h⟩
  | _ => cases h

/-- The worker is at an `await`. -/
def awaits : CollectorPhase σ → Bool
  | stopped _ | crashed => false
  | _ => true

end CollectorPhase

/-! ## The system -/

/-- A snapshot that a process has passed to `QueueStateMetrics::replace`. -/
structure Replacement (π σ : Type) where
  process : π
  session : σ
  query : StateQuery
  snapshot : List QueuePriorityStateSnapshot

/-- What is recorded of a time. -/
structure CollectorMoment (σ : Type) where
  lock : SessionLock σ
  database : Database
  now : Int

structure Collectors (π σ : Type) where
  /-- The sessions, and the advisory lock. -/
  lock : SessionLock σ
  database : Database
  now : Int
  wire : σ → Wire
  place : σ → ConnectionPlace π
  phase : π → CollectorPhase σ
  /-- The number of steps so far, and what there was after each of them. -/
  time : Nat
  past : Nat → CollectorMoment σ
  /-- The leases that were acquired. -/
  acquired : List (π × σ)
  replaced : List (Replacement π σ)

inductive CollectorAction (π σ : Type)
  /-- The other users of the database have changed it, or time has passed. -/
  | commit (database : Database) (now : Int)
  /-- The interval of the worker ticks. -/
  | tick (p : π)
  /-- The pool gives the worker a connection: an idle one or a new one. -/
  | connect (p : π) (c : σ)
  | connectFails (p : π) (error : String)
  /-- The server takes the next step with the statement of a session.  A lock statement that
      fails takes no lock. -/
  | execute (c : σ) (outcome : Except String Unit)
  /-- The reply reaches the worker. -/
  | receive (p : π)
  /-- The connection breaks while the worker awaits the reply. -/
  | sever (p : π) (error : String)
  /-- The worker is cancelled at the `await` where it is. -/
  | cancel (p : π)
  | crash (p : π)
  /-- The session ends: it is closed, or the server loses it. -/
  | lose (c : σ)
  | borrow (p : π) (c : σ)
  | giveBack (p : π) (c : σ)
  /-- The pool reads away what is left over on an idle connection, before it is used again. -/
  | flush (c : σ)

namespace Collectors

variable {π σ : Type} [DecidableEq π] [DecidableEq σ]

omit [DecidableEq π] [DecidableEq σ] in
/-- The present, as it is recorded. -/
def moment (s : Collectors π σ) : CollectorMoment σ := ⟨s.lock, s.database, s.now⟩

def setPhase (s : Collectors π σ) (p : π) (phase : CollectorPhase σ) : Collectors π σ :=
  { s with phase := Function.update s.phase p phase }

def setWire (s : Collectors π σ) (c : σ) (wire : Wire) : Collectors π σ :=
  { s with wire := Function.update s.wire c wire }

def setPlace (s : Collectors π σ) (c : σ) (place : ConnectionPlace π) : Collectors π σ :=
  { s with place := Function.update s.place c place }

/-- The drop of a `PoolConnection`: back to the pool, unless it is marked. -/
def drop (s : Collectors π σ) (p : π) (c : PoolConnection σ) : Collectors π σ :=
  s.setPlace c.session (if c.closeOnDrop then .closing else .pooled p)

/-- A connection of the pool of the process, for the worker or for another borrower. -/
def acquire (s : Collectors π σ) (p : π) (c : σ) (place : ConnectionPlace π) :
    Option (Collectors π σ) :=
  match s.place c, s.wire c with
  | .pooled q, .idle => if q = p then some (s.setPlace c place) else none
  | .absent, _ =>
    if s.lock.status c = .unopened then
      some { s.setPlace c place with lock := s.lock.openSession c }
    else none
  | _, _ => none

/-- The server on the statement of a session. -/
def execute (s : Collectors π σ) (c : σ) (outcome : Except String Unit) :
    Option (Collectors π σ) :=
  if s.lock.status c = .live then
    match s.wire c, outcome with
    | .lockSent, .ok () =>
      some { s.setWire c (.lockReply (.ok (s.lock.grants c))) with lock := s.lock.tryLock c }
    | .lockSent, .error error => some (s.setWire c (.lockReply (.error error)))
    | .readSent, .ok () => some (s.setWire c (.reading s.time (collect s.database s.now)))
    | .reading started result, .ok () =>
      some (s.setWire c (.readReply (.ok ⟨started, s.time, result⟩)))
    | .readSent, .error error | .reading _ _, .error error =>
      some (s.setWire c (.readReply (.error error)))
    | _, _ => none
  else none

/-- `try_acquire_lease` after its reply, and the rest of the turn of `wait_for_leadership`. -/
def receiveLock (s : Collectors π σ) (p : π) (c : PoolConnection σ) :
    Except String Bool → Collectors π σ
  | .ok true =>
    { s.setPhase p (.leading c.lease) with acquired := s.acquired ++ [(p, c.session)] }
  | .ok false => (s.setPhase p .waiting).drop p c
  | .error error => (s.setPhase p (.stopped (.error (failedToAcquire error)))).drop p c

/-- `refresh_state_metrics` after the reply to its query, and the rest of the turn of
    `collect`. -/
def receiveRead (s : Collectors π σ) (p : π) (lease : QueueStateCollectorLease σ) :
    Except String StateQuery → Collectors π σ
  | .ok query =>
    match query.result with
    | .ok snapshot =>
      { s.setPhase p (.leading lease) with
        replaced := s.replaced ++ [⟨p, lease.connection.session, query, snapshot⟩] }
    | .error error =>
      (s.setPhase p (.stopped (.error (failedToRefresh (.row error))))).drop p lease.connection
  | .error error =>
    (s.setPhase p (.stopped (.error (failedToRefresh (.statement error))))).drop p
      lease.connection

def receive (s : Collectors π σ) (p : π) : Option (Collectors π σ) :=
  match s.phase p with
  | .locking c =>
    match s.wire c.session with
    | .lockReply reply => some ((s.setWire c.session .idle).receiveLock p c reply)
    | _ => none
  | .refreshing lease =>
    match s.wire lease.connection.session with
    | .readReply reply =>
      some ((s.setWire lease.connection.session .idle).receiveRead p lease reply)
    | _ => none
  | _ => none

/-- The worker ends where it is, and drops the connection that it has. -/
def leave (s : Collectors π σ) (p : π) (result : Except CollectorFailure Unit) :
    Collectors π σ :=
  let stopped := s.setPhase p (.stopped result)
  match (s.phase p).connection with
  | some c => stopped.drop p c
  | none => stopped

/-- The connection breaks under the statement: the statement fails, and no pool takes the
    connection back. -/
def sever (s : Collectors π σ) (p : π) (error : String) : Option (Collectors π σ) :=
  match s.phase p with
  | .locking c =>
    some ((s.setPhase p (.stopped (.error (failedToAcquire error)))).setPlace c.session .closing)
  | .refreshing lease =>
    some ((s.setPhase p (.stopped (.error (failedToRefresh (.statement error))))).setPlace
      lease.connection.session .closing)
  | _ => none

def act (s : Collectors π σ) : CollectorAction π σ → Option (Collectors π σ)
  | .commit database now => some { s with database, now }
  | .tick p =>
    match s.phase p with
    | .waiting => some (s.setPhase p .connecting)
    | .leading lease =>
      some ((s.setPhase p (.refreshing lease)).setWire lease.connection.session .readSent)
    | _ => none
  | .connect p c =>
    match s.phase p with
    | .connecting =>
      (s.acquire p c (.worker p)).map fun s =>
        (s.setPhase p (.locking ⟨c, false⟩)).setWire c .lockSent
    | _ => none
  | .connectFails p error =>
    match s.phase p with
    | .connecting => some (s.setPhase p (.stopped (.error (failedToAcquire error))))
    | _ => none
  | .execute c outcome => s.execute c outcome
  | .receive p => s.receive p
  | .sever p error => s.sever p error
  | .cancel p => if (s.phase p).awaits then some (s.leave p (.ok ())) else none
  | .crash p =>
    some { s with
      phase := Function.update s.phase p .crashed
      place := fun c => (s.place c).without p }
  | .lose c =>
    if s.lock.status c = .live then some { s with lock := s.lock.endSession c } else none
  | .borrow p c => s.acquire p c (.borrowed p)
  | .giveBack p c =>
    if s.place c = .borrowed p then some (s.setPlace c (.pooled p)) else none
  | .flush c =>
    match s.place c with
    | .pooled _ => if (s.wire c).replied then some (s.setWire c .idle) else none
    | _ => none

omit [DecidableEq π] [DecidableEq σ] in
def record (s : Collectors π σ) : Collectors π σ :=
  { s with time := s.time + 1, past := Function.update s.past (s.time + 1) s.moment }

def step (s : Collectors π σ) (a : CollectorAction π σ) : Option (Collectors π σ) :=
  (s.act a).map record

omit [DecidableEq π] [DecidableEq σ] in
/-- Every process is about to start its worker, and nothing is connected. -/
def start (database : Database) (now : Int) : Collectors π σ where
  lock := .initial
  database := database
  now := now
  wire _ := .idle
  place _ := .absent
  phase _ := .waiting
  time := 0
  past _ := ⟨.initial, database, now⟩
  acquired := []
  replaced := []

/-! ## One action, by its cases -/

variable {s s' : Collectors π σ} {a : CollectorAction π σ} {p : π} {c : σ} {error : String}

/-- A pool gives out an idle connection, or opens a session. -/
theorem acquire_cases {place : ConnectionPlace π} (h : s.acquire p c place = some s') :
    (s.place c = .pooled p ∧ s.wire c = .idle ∧ s' = s.setPlace c place) ∨
    (s.place c = .absent ∧ s.lock.status c = .unopened ∧
      s' = { s.setPlace c place with lock := s.lock.openSession c }) := by
  unfold acquire at h
  split at h
  · rename_i q hplace hwire
    obtain ⟨rfl, hs'⟩ := Option.ite_none_right_eq_some.mp h
    exact .inl ⟨hplace, hwire, (Option.some.inj hs').symm⟩
  · rename_i hplace
    obtain ⟨hstatus, hs'⟩ := Option.ite_none_right_eq_some.mp h
    exact .inr ⟨hplace, hstatus, (Option.some.inj hs').symm⟩
  · cases h

theorem tick_cases (h : s.act (.tick p) = some s') :
    (s.phase p = .waiting ∧ s' = s.setPhase p .connecting) ∨
    ∃ lease, s.phase p = .leading lease ∧
      s' = (s.setPhase p (.refreshing lease)).setWire lease.connection.session .readSent := by
  simp only [act] at h
  split at h
  · rename_i hphase
    exact .inl ⟨hphase, (Option.some.inj h).symm⟩
  · rename_i lease hphase
    exact .inr ⟨lease, hphase, (Option.some.inj h).symm⟩
  · cases h

theorem connect_cases (h : s.act (.connect p c) = some s') :
    s.phase p = .connecting ∧ ∃ s₁, s.acquire p c (.worker p) = some s₁ ∧
      s' = (s₁.setPhase p (.locking ⟨c, false⟩)).setWire c .lockSent := by
  simp only [act] at h
  split at h
  · rename_i hphase
    obtain ⟨s₁, hs₁, hs'⟩ := Option.map_eq_some_iff.mp h
    exact ⟨hphase, s₁, hs₁, hs'.symm⟩
  · cases h

theorem connectFails_cases (h : s.act (.connectFails p error) = some s') :
    s.phase p = .connecting ∧
      s' = s.setPhase p (.stopped (.error (failedToAcquire error))) := by
  simp only [act] at h
  split at h
  · rename_i hphase
    exact ⟨hphase, (Option.some.inj h).symm⟩
  · cases h

/-- What the server makes of the statement on the wire, and of the lock. -/
inductive Executed (s : Collectors π σ) (c : σ) :
    Except String Unit → Wire → Wire → SessionLock σ → Prop
  | lock : Executed s c (.ok ()) .lockSent (.lockReply (.ok (s.lock.grants c))) (s.lock.tryLock c)
  | lockFails (error : String) :
      Executed s c (.error error) .lockSent (.lockReply (.error error)) s.lock
  | readBegins :
      Executed s c (.ok ()) .readSent (.reading s.time (collect s.database s.now)) s.lock
  | readEnds (started : Nat)
      (result : Except RepositoryError (List QueuePriorityStateSnapshot)) :
      Executed s c (.ok ()) (.reading started result)
        (.readReply (.ok ⟨started, s.time, result⟩)) s.lock
  | readFails (sent : Wire) (error : String) :
      Executed s c (.error error) sent (.readReply (.error error)) s.lock

omit [DecidableEq π] in
theorem execute_cases {outcome : Except String Unit} (h : s.execute c outcome = some s') :
    s.lock.status c = .live ∧ ∃ reply lock, s.Executed c outcome (s.wire c) reply lock ∧
      s' = { s.setWire c reply with lock } := by
  obtain ⟨hlive, hs'⟩ := Option.ite_none_right_eq_some.mp h
  refine ⟨hlive, ?_⟩
  split at hs'
  · rename_i hwire
    rw [hwire]
    exact ⟨_, _, .lock, (Option.some.inj hs').symm⟩
  · rename_i hwire
    rw [hwire]
    exact ⟨_, _, .lockFails _, (Option.some.inj hs').symm⟩
  · rename_i hwire
    rw [hwire]
    exact ⟨_, _, .readBegins, (Option.some.inj hs').symm⟩
  · rename_i hwire
    rw [hwire]
    exact ⟨_, _, .readEnds _ _, (Option.some.inj hs').symm⟩
  · exact ⟨_, _, .readFails _ _, (Option.some.inj hs').symm⟩
  · exact ⟨_, _, .readFails _ _, (Option.some.inj hs').symm⟩
  · cases hs'

theorem receive_cases (h : s.act (.receive p) = some s') :
    (∃ k reply, s.phase p = .locking k ∧ s.wire k.session = .lockReply reply ∧
      s' = (s.setWire k.session .idle).receiveLock p k reply) ∨
    ∃ lease reply, s.phase p = .refreshing lease ∧
      s.wire lease.connection.session = .readReply reply ∧
      s' = (s.setWire lease.connection.session .idle).receiveRead p lease reply := by
  simp only [act, receive] at h
  split at h
  · rename_i k hphase
    split at h
    · rename_i reply hwire
      exact .inl ⟨k, reply, hphase, hwire, (Option.some.inj h).symm⟩
    · cases h
  · rename_i lease hphase
    split at h
    · rename_i reply hwire
      exact .inr ⟨lease, reply, hphase, hwire, (Option.some.inj h).symm⟩
    · cases h
  · cases h

theorem sever_cases (h : s.act (.sever p error) = some s') :
    ∃ k result, (s.phase p).connection = some k ∧
      s' = (s.setPhase p (.stopped (.error result))).setPlace k.session .closing := by
  simp only [act, sever] at h
  split at h
  · rename_i k hphase
    exact ⟨k, _, by rw [hphase]; rfl, (Option.some.inj h).symm⟩
  · rename_i lease hphase
    exact ⟨lease.connection, _, by rw [hphase]; rfl, (Option.some.inj h).symm⟩
  · cases h

theorem cancel_cases (h : s.act (.cancel p) = some s') :
    ((s.phase p).connection = none ∧ s' = s.setPhase p (.stopped (.ok ()))) ∨
    ∃ k, (s.phase p).connection = some k ∧ s' = (s.setPhase p (.stopped (.ok ()))).drop p k := by
  obtain ⟨-, hs'⟩ := Option.ite_none_right_eq_some.mp h
  have hleave : s' = s.leave p (.ok ()) := (Option.some.inj hs').symm
  unfold leave at hleave
  cases hk : (s.phase p).connection with
  | none =>
    rw [hk] at hleave
    exact .inl ⟨rfl, hleave⟩
  | some k =>
    rw [hk] at hleave
    exact .inr ⟨k, rfl, hleave⟩

theorem flush_cases (h : s.act (.flush c) = some s') :
    (∃ p, s.place c = .pooled p) ∧ (s.wire c).replied = true ∧ s' = s.setWire c .idle := by
  simp only [act] at h
  split at h
  · rename_i p hplace
    obtain ⟨hreplied, hs'⟩ := Option.ite_none_right_eq_some.mp h
    exact ⟨⟨p, hplace⟩, hreplied, (Option.some.inj hs').symm⟩
  · cases h

/-! ## What an action does -/

/-- The sessions and the lock. -/
inductive LockStep (s : Collectors π σ) (a : CollectorAction π σ) (s' : Collectors π σ) : Prop
  | stays (h : s'.lock = s.lock)
  | opened (c : σ) (hunopened : s.lock.status c = .unopened) (hplace : s'.place c ≠ .absent)
      (h : s'.lock = s.lock.openSession c)
  | asked (c : σ) (haction : a = .execute c (.ok ())) (hwire : s.wire c = .lockSent)
      (hlive : s.lock.status c = .live) (h : s'.lock = s.lock.tryLock c)
  | ended (c : σ) (hlive : s.lock.status c = .live) (h : s'.lock = s.lock.endSession c)

/-- The wire of one session. -/
inductive WireStep (s s' : Collectors π σ) (c : σ) : Prop
  | stays (h : s'.wire c = s.wire c)
  | idle (h : s'.wire c = .idle)
  | lockSent (hfree : (∃ p, s.place c = .pooled p) ∨ s.lock.status c = .unopened)
      (h : s'.wire c = .lockSent)
  | readSent (p : π) (lease : QueueStateCollectorLease σ) (hphase : s.phase p = .leading lease)
      (hsession : lease.connection.session = c) (h : s'.wire c = .readSent)
  | executed (outcome : Except String Unit) (hlive : s.lock.status c = .live)
      (h : s.Executed c outcome (s.wire c) (s'.wire c) s'.lock)

/-- The connections: in whose hands they are, and which worker has which. -/
inductive Handover (s : Collectors π σ) (a : CollectorAction π σ) (s' : Collectors π σ) : Prop
  | keeps (hplace : s'.place = s.place)
      (hsession : ∀ p, (s'.phase p).session = (s.phase p).session)
      (hlocking : ∀ p k, s'.phase p = .locking k → s.phase p = .locking k)
  /-- The pool gives one out. -/
  | takes (c : σ) (place : ConnectionPlace π)
      (hfree : (∃ q, s.place c = .pooled q) ∨ s.place c = .absent)
      (hplace : s'.place = Function.update s.place c place)
      (htaker : (∃ q, place = .borrowed q) ∧ s'.phase = s.phase ∨
        ∃ p, place = .worker p ∧ s.phase p = .connecting ∧
          s'.phase = Function.update s.phase p (.locking ⟨c, false⟩))
  /-- A worker drops the one that it has. -/
  | leaves (p : π) (k : PoolConnection σ) (phase : CollectorPhase σ) (place : ConnectionPlace π)
      (hhad : (s.phase p).connection = some k) (hnone : phase.connection = none)
      (hphase : s'.phase = Function.update s.phase p phase)
      (hplace : s'.place = Function.update s.place k.session place)
      (hdropped : place = .closing ∨ place = .pooled p ∧ k.closeOnDrop = false ∧
        (a = .cancel p ∨ (s.wire k.session).ungranted = true))
  | returns (p : π) (c : σ) (hborrowed : s.place c = .borrowed p)
      (hplace : s'.place = Function.update s.place c (.pooled p)) (hphase : s'.phase = s.phase)
  | crashes (p : π) (hphase : s'.phase = Function.update s.phase p .crashed)
      (hplace : s'.place = fun c => (s.place c).without p)

/-- A worker has passed on what it received under its lease. -/
inductive Replaces (s : Collectors π σ) : List (Replacement π σ) → Prop
  | one (p : π) (lease : QueueStateCollectorLease σ) (query : StateQuery)
      (snapshot : List QueuePriorityStateSnapshot) (hlease : (s.phase p).lease = some lease)
      (hwire : s.wire lease.connection.session = .readReply (.ok query))
      (hresult : query.result = .ok snapshot) :
      Replaces s (s.replaced ++ [⟨p, lease.connection.session, query, snapshot⟩])

/-- The leases, and the snapshots that are passed on. -/
inductive Reports (s s' : Collectors π σ) : Prop
  | keeps (hacquired : s'.acquired = s.acquired)
      (hreplaced : s'.replaced = s.replaced ∨ s.Replaces s'.replaced)
      (hlease : ∀ p lease, (s'.phase p).lease = some lease → (s.phase p).lease = some lease)
      (hseeks : ∀ p, (s'.phase p).seeks = true → (s.phase p).seeks = true)
  | leads (p : π) (k : PoolConnection σ) (hlocking : s.phase p = .locking k)
      (hwire : s.wire k.session = .lockReply (.ok true))
      (hacquired : s'.acquired = s.acquired ++ [(p, k.session)])
      (hreplaced : s'.replaced = s.replaced)
      (hphase : s'.phase = Function.update s.phase p (.leading k.lease))

/-- What an action does to each part of the system. -/
structure Effect (s : Collectors π σ) (a : CollectorAction π σ) (s' : Collectors π σ) :
    Prop where
  lock : s.LockStep a s'
  history : s'.time = s.time ∧ s'.past = s.past
  wire : ∀ c, s.WireStep s' c
  handover : s.Handover a s'
  reports : s.Reports s'

omit [DecidableEq π] in
theorem LockStep.step (h : s.LockStep a s') : s.lock.Step s'.lock := by
  cases h with
  | stays h =>
    rw [h]
    exact .stays
  | opened c hunopened _ h =>
    rw [h]
    exact .opened hunopened
  | asked c _ _ hlive h =>
    rw [h]
    exact .tried hlive
  | ended c hlive h =>
    rw [h]
    exact .ended hlive

omit [DecidableEq π] in
theorem lockStep_executed {outcome : Except String Unit} {sent reply : Wire}
    (hexecuted : s.Executed c outcome sent reply s'.lock) (hsent : s.wire c = sent)
    (hlive : s.lock.status c = .live) : s.LockStep (.execute c outcome) s' := by
  generalize hlock : s'.lock = lock at hexecuted
  cases hexecuted with
  | lock => exact .asked c rfl hsent hlive hlock
  | _ => exact .stays hlock

omit [DecidableEq π] in
theorem wireStep_setWire {wire : Wire} (hwire : s'.wire = Function.update s.wire c wire)
    (h : s.WireStep s' c) (d : σ) : s.WireStep s' d := by
  rcases eq_or_ne d c with rfl | hne
  · exact h
  · refine .stays ?_
    rw [hwire, Function.update_of_ne hne]

/-- A worker that goes on with the connection that it has, or without one as before. -/
theorem handover_setPhase {phase : CollectorPhase σ}
    (hplace : s'.place = s.place) (hphase : s'.phase = Function.update s.phase p phase)
    (hsession : phase.session = (s.phase p).session)
    (hlocking : ∀ k, phase ≠ .locking k) : s.Handover a s' := by
  refine .keeps hplace (fun q => ?_) fun q k hq => ?_
  · rw [hphase]
    rcases eq_or_ne q p with rfl | hne
    · rw [Function.update_self, hsession]
    · rw [Function.update_of_ne hne]
  · rw [hphase] at hq
    rcases eq_or_ne q p with rfl | hne
    · rw [Function.update_self] at hq
      exact absurd hq (hlocking k)
    · rwa [Function.update_of_ne hne] at hq

omit [DecidableEq σ] in
theorem reports_stay (hacquired : s'.acquired = s.acquired) (hreplaced : s'.replaced = s.replaced)
    (hphase : s'.phase = s.phase) : s.Reports s' :=
  .keeps hacquired (.inl hreplaced) (fun p lease hlease => by rwa [hphase] at hlease)
    fun p hseeks => by rwa [hphase] at hseeks

theorem handover_stay (hplace : s'.place = s.place) (hphase : s'.phase = s.phase) :
    s.Handover a s' :=
  .keeps hplace (fun p => by rw [hphase]) fun p k hk => by rwa [hphase] at hk

omit [DecidableEq σ] in
/-- A phase that has no lease, or the lease that the worker has had. -/
theorem reports_setPhase {phase : CollectorPhase σ} (hacquired : s'.acquired = s.acquired)
    (hreplaced : s'.replaced = s.replaced ∨ s.Replaces s'.replaced)
    (hphase : s'.phase = Function.update s.phase p phase)
    (hlease : ∀ lease, phase.lease = some lease → (s.phase p).lease = some lease)
    (hseeks : phase.seeks = true → (s.phase p).seeks = true) : s.Reports s' := by
  refine .keeps hacquired hreplaced (fun q lease hq => ?_) fun q hq => ?_
  · rw [hphase] at hq
    rcases eq_or_ne q p with rfl | hne
    · rw [Function.update_self] at hq
      exact hlease lease hq
    · rwa [Function.update_of_ne hne] at hq
  · rw [hphase] at hq
    rcases eq_or_ne q p with rfl | hne
    · rw [Function.update_self] at hq
      exact hseeks hq
    · rwa [Function.update_of_ne hne] at hq

theorem handover_drop {k : PoolConnection σ} {phase : CollectorPhase σ}
    (hhad : (s.phase p).connection = some k) (hnone : phase.connection = none)
    (hphase : s'.phase = Function.update s.phase p phase)
    (hplace : s'.place = Function.update s.place k.session
      (if k.closeOnDrop then .closing else .pooled p))
    (hcause : k.closeOnDrop = false → a = .cancel p ∨ (s.wire k.session).ungranted = true) :
    s.Handover a s' := by
  refine .leaves p k phase _ hhad hnone hphase hplace ?_
  cases hmarked : k.closeOnDrop with
  | true => exact .inl rfl
  | false => exact .inr ⟨rfl, rfl, hcause hmarked⟩

theorem handover_acquire {place : ConnectionPlace π} {s₁ : Collectors π σ}
    (h : s.acquire p c place = some s₁) (hplace : s'.place = s₁.place)
    (htaker : (∃ q, place = .borrowed q) ∧ s'.phase = s.phase ∨
      ∃ p, place = .worker p ∧ s.phase p = .connecting ∧
        s'.phase = Function.update s.phase p (.locking ⟨c, false⟩)) : s.Handover a s' := by
  obtain ⟨hpooled, -, rfl⟩ | ⟨habsent, -, rfl⟩ := acquire_cases h
  · exact .takes c place (.inl ⟨p, hpooled⟩) hplace htaker
  · exact .takes c place (.inr habsent) hplace htaker

theorem acquire_phase {place : ConnectionPlace π} (h : s.acquire p c place = some s') :
    s'.phase = s.phase := by
  obtain ⟨-, -, rfl⟩ | ⟨-, -, rfl⟩ := acquire_cases h <;> rfl

theorem acquire_place {place : ConnectionPlace π} (h : s.acquire p c place = some s')
    (hplace : place ≠ .absent) : s'.place c ≠ .absent := by
  obtain ⟨-, -, rfl⟩ | ⟨-, -, rfl⟩ := acquire_cases h
  · exact ne_of_eq_of_ne (Function.update_self ..) hplace
  · exact ne_of_eq_of_ne (Function.update_self ..) hplace

theorem connect_effect {s₁ : Collectors π σ} (hphase : s.phase p = .connecting)
    (hs₁ : s.acquire p c (.worker p) = some s₁) :
    s.Effect a ((s₁.setPhase p (.locking ⟨c, false⟩)).setWire c .lockSent) := by
  have hhandover : s.Handover a ((s₁.setPhase p (.locking ⟨c, false⟩)).setWire c .lockSent) := by
    refine handover_acquire hs₁ rfl (.inr ⟨p, rfl, hphase, ?_⟩)
    show Function.update s₁.phase p _ = _
    rw [acquire_phase hs₁]
  have hplace : s₁.place c ≠ .absent := acquire_place hs₁ nofun
  obtain ⟨hpooled, -, rfl⟩ | ⟨-, hunopened, rfl⟩ := acquire_cases hs₁
  · refine ⟨.stays rfl, ⟨rfl, rfl⟩, wireStep_setWire rfl ?_, hhandover,
      reports_setPhase rfl (.inl rfl) rfl nofun fun _ => by rw [hphase]; rfl⟩
    exact .lockSent (.inl ⟨p, hpooled⟩) (Function.update_self ..)
  · refine ⟨.opened c hunopened hplace rfl, ⟨rfl, rfl⟩, wireStep_setWire rfl ?_, hhandover,
      reports_setPhase rfl (.inl rfl) rfl nofun fun _ => by rw [hphase]; rfl⟩
    exact .lockSent (.inr hunopened) (Function.update_self ..)

theorem receiveLock_effect {k : PoolConnection σ} {reply : Except String Bool}
    (hphase : s.phase p = .locking k) (hwire : s.wire k.session = .lockReply reply)
    (hs' : s' = (s.setWire k.session .idle).receiveLock p k reply) : s.Effect a s' := by
  have hhad : (s.phase p).connection = some k := by
    rw [hphase]
    rfl
  subst hs'
  match reply with
  | .ok true =>
    refine ⟨.stays rfl, ⟨rfl, rfl⟩, wireStep_setWire rfl (.idle (Function.update_self ..)), ?_,
      .leads p k hphase hwire rfl rfl rfl⟩
    exact handover_setPhase rfl rfl (by rw [hphase]; rfl) nofun
  | .ok false =>
    refine ⟨.stays rfl, ⟨rfl, rfl⟩, wireStep_setWire rfl (.idle (Function.update_self ..)), ?_,
      reports_setPhase rfl (.inl rfl) rfl nofun fun _ => by rw [hphase]; rfl⟩
    exact handover_drop hhad rfl rfl rfl fun _ => .inr (by rw [hwire]; rfl)
  | .error error =>
    refine ⟨.stays rfl, ⟨rfl, rfl⟩, wireStep_setWire rfl (.idle (Function.update_self ..)), ?_,
      reports_setPhase rfl (.inl rfl) rfl nofun nofun⟩
    exact handover_drop hhad rfl rfl rfl fun _ => .inr (by rw [hwire]; rfl)

theorem receiveRead_effect {lease : QueueStateCollectorLease σ} {reply : Except String StateQuery}
    (hphase : s.phase p = .refreshing lease)
    (hwire : s.wire lease.connection.session = .readReply reply)
    (hs' : s' = (s.setWire lease.connection.session .idle).receiveRead p lease reply) :
    s.Effect a s' := by
  have hhad : (s.phase p).connection = some lease.connection := by
    rw [hphase]
    rfl
  have hmarked : ¬lease.connection.closeOnDrop = false := by
    rw [lease.marked]
    nofun
  subst hs'
  match reply with
  | .ok ⟨started, finished, .ok snapshot⟩ =>
    refine ⟨.stays rfl, ⟨rfl, rfl⟩, wireStep_setWire rfl (.idle (Function.update_self ..)), ?_, ?_⟩
    · exact handover_setPhase rfl rfl (by rw [hphase]; rfl) nofun
    · have hlease : (s.phase p).lease = some lease := by
        rw [hphase]
        rfl
      refine reports_setPhase rfl (.inr (.one p lease _ snapshot hlease hwire rfl)) rfl ?_ nofun
      exact fun _ hleading => hlease.trans hleading
  | .ok ⟨started, finished, .error error⟩ =>
    refine ⟨.stays rfl, ⟨rfl, rfl⟩, wireStep_setWire rfl (.idle (Function.update_self ..)), ?_,
      reports_setPhase rfl (.inl rfl) rfl nofun nofun⟩
    exact handover_drop hhad rfl rfl rfl fun h => absurd h hmarked
  | .error error =>
    refine ⟨.stays rfl, ⟨rfl, rfl⟩, wireStep_setWire rfl (.idle (Function.update_self ..)), ?_,
      reports_setPhase rfl (.inl rfl) rfl nofun nofun⟩
    exact handover_drop hhad rfl rfl rfl fun h => absurd h hmarked

/-- **One action.** -/
theorem act_effect (h : s.act a = some s') : s.Effect a s' := by
  cases a with
  | commit database now =>
    obtain rfl := Option.some.inj h
    exact ⟨.stays rfl, ⟨rfl, rfl⟩, fun _ => .stays rfl, handover_stay rfl rfl,
      reports_stay rfl rfl rfl⟩
  | tick p =>
    obtain ⟨hphase, rfl⟩ | ⟨lease, hphase, rfl⟩ := tick_cases h
    · refine ⟨.stays rfl, ⟨rfl, rfl⟩, fun _ => .stays rfl, ?_, ?_⟩
      · exact handover_setPhase rfl rfl (by rw [hphase]; rfl) nofun
      · exact reports_setPhase rfl (.inl rfl) rfl nofun fun _ => by rw [hphase]; rfl
    · refine ⟨.stays rfl, ⟨rfl, rfl⟩, wireStep_setWire rfl ?_, ?_, ?_⟩
      · exact .readSent p lease hphase rfl (Function.update_self ..)
      · exact handover_setPhase rfl rfl (by rw [hphase]; rfl) nofun
      · refine reports_setPhase rfl (.inl rfl) rfl (fun lease' hlease => ?_) nofun
        rw [hphase]
        exact hlease
  | connect p c =>
    obtain ⟨hphase, s₁, hs₁, rfl⟩ := connect_cases h
    exact connect_effect hphase hs₁
  | connectFails p error =>
    obtain ⟨hphase, rfl⟩ := connectFails_cases h
    exact ⟨.stays rfl, ⟨rfl, rfl⟩, fun _ => .stays rfl,
      handover_setPhase rfl rfl (by rw [hphase]; rfl) nofun,
      reports_setPhase rfl (.inl rfl) rfl nofun nofun⟩
  | execute c outcome =>
    obtain ⟨hlive, reply, lock, hexecuted, rfl⟩ := execute_cases h
    refine ⟨lockStep_executed hexecuted rfl hlive, ⟨rfl, rfl⟩, wireStep_setWire rfl ?_,
      handover_stay rfl rfl, reports_stay rfl rfl rfl⟩
    refine .executed outcome hlive ?_
    show s.Executed c outcome _ (Function.update s.wire c reply c) lock
    rw [Function.update_self]
    exact hexecuted
  | receive p =>
    obtain ⟨k, reply, hphase, hwire, hs'⟩ | ⟨lease, reply, hphase, hwire, hs'⟩ := receive_cases h
    · exact receiveLock_effect hphase hwire hs'
    · exact receiveRead_effect hphase hwire hs'
  | sever p error =>
    obtain ⟨k, result, hhad, rfl⟩ := sever_cases h
    exact ⟨.stays rfl, ⟨rfl, rfl⟩, fun _ => .stays rfl,
      .leaves p k _ .closing hhad rfl rfl rfl (.inl rfl),
      reports_setPhase rfl (.inl rfl) rfl nofun nofun⟩
  | cancel p =>
    obtain ⟨hnone, rfl⟩ | ⟨k, hhad, rfl⟩ := cancel_cases h
    · exact ⟨.stays rfl, ⟨rfl, rfl⟩, fun _ => .stays rfl,
        handover_setPhase rfl rfl (CollectorPhase.session_of_none hnone).symm nofun,
        reports_setPhase rfl (.inl rfl) rfl nofun nofun⟩
    · exact ⟨.stays rfl, ⟨rfl, rfl⟩, fun _ => .stays rfl,
        handover_drop hhad rfl rfl rfl fun _ => .inl rfl,
        reports_setPhase rfl (.inl rfl) rfl nofun nofun⟩
  | crash p =>
    obtain rfl := Option.some.inj h
    exact ⟨.stays rfl, ⟨rfl, rfl⟩, fun _ => .stays rfl, .crashes p rfl rfl,
      reports_setPhase rfl (.inl rfl) rfl nofun nofun⟩
  | lose c =>
    obtain ⟨hlive, hs'⟩ := Option.ite_none_right_eq_some.mp h
    obtain rfl := Option.some.inj hs'
    exact ⟨.ended c hlive rfl, ⟨rfl, rfl⟩, fun _ => .stays rfl,
      handover_stay rfl rfl, reports_stay rfl rfl rfl⟩
  | borrow p c =>
    have hhandover : s.Handover (.borrow p c) s' :=
      handover_acquire h rfl (.inl ⟨⟨p, rfl⟩, by rw [acquire_phase h]⟩)
    have hplace : s'.place c ≠ .absent := acquire_place h nofun
    obtain ⟨-, -, rfl⟩ | ⟨-, hunopened, rfl⟩ := acquire_cases h
    · exact ⟨.stays rfl, ⟨rfl, rfl⟩, fun _ => .stays rfl, hhandover, reports_stay rfl rfl rfl⟩
    · exact ⟨.opened c hunopened hplace rfl, ⟨rfl, rfl⟩, fun _ => .stays rfl, hhandover,
        reports_stay rfl rfl rfl⟩
  | giveBack p c =>
    obtain ⟨hborrowed, hs'⟩ := Option.ite_none_right_eq_some.mp h
    obtain rfl := Option.some.inj hs'
    exact ⟨.stays rfl, ⟨rfl, rfl⟩, fun _ => .stays rfl, .returns p c hborrowed rfl rfl,
      reports_stay rfl rfl rfl⟩
  | flush c =>
    obtain ⟨-, -, rfl⟩ := flush_cases h
    exact ⟨.stays rfl, ⟨rfl, rfl⟩, wireStep_setWire rfl (.idle (Function.update_self ..)),
      handover_stay rfl rfl, reports_stay rfl rfl rfl⟩

end Collectors

end Retsu
