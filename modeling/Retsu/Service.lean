/-
  The service: tasks of all processes as threads over the concurrent transactions.

  A thread is a task that has been given some answers.  It looks a queue up, and is answered with
  what the table held at this moment or at an earlier one, since a cache may answer; it sends an
  operation, which becomes a transaction of its own; it takes the response when the transaction has
  committed.  An await may fail at any time, and a thread may be dropped at any time (a client that
  closes its connection, a process that dies): the transaction that was sent goes on without it.
-/
import Retsu.Tasks
import Retsu.Trace

namespace Retsu

open Concurrency UseCases Program

/-! ## Threads -/

structure Thread where
  task : Task
  /-- What it has been answered. -/
  answered : Exchanged
  /-- What is left of the task. -/
  program : Awaiting (Outcome × List Measurement)
  /-- The transaction that it has sent. -/
  sent : Option Nat

structure Service where
  system : System
  /-- What has been committed at some time, the latest first. -/
  past : List Database
  threads : Nat → Option Thread
  /-- What the processes have recorded together. -/
  recorded : List Measurement
  /-- The log, with the transactions of its entries. -/
  commits : List (Nat × Event)
  /-- The transactions whose responses have been taken. -/
  reported : List Nat

def Service.initial : Service where
  system := .initial
  past := [System.initial.db]
  threads _ := none
  recorded := []
  commits := []
  reported := []

inductive ServiceAction
  /-- A step of the database; transactions start with `send` only. -/
  | system (a : Action)
  | spawn (id : Nat) (task : Task)
  /-- A look-up is answered as of `past[moment]`. -/
  | read (id moment : Nat)
  | send (id tid : Nat)
  | reply (id : Nat)
  /-- An await fails, whatever becomes of what has been sent. -/
  | fail (id : Nat)
  | drop (id : Nat)

namespace Service

def setThread (s : Service) (id : Nat) (thread : Option Thread) : Service :=
  { s with threads := fun other => if other = id then thread else s.threads other }

/-- What has been recorded by a program that is done. -/
def recordedBy : Awaiting (Outcome × List Measurement) → List Measurement
  | .done ended => ended.2
  | .await _ _ => []

def spawn (s : Service) (id : Nat) (task : Task) : Service :=
  { s.setThread id (some ⟨task, [], task.program, none⟩) with
    recorded := s.recorded ++ recordedBy task.program }

/-- The thread goes on to `program`; it records before it can be interrupted. -/
def resume (s : Service) (id : Nat) (thread : Thread) (exchange : Exchange Query Answer)
    (program : Awaiting (Outcome × List Measurement)) : Service :=
  { s.setThread id (some { thread with
      answered := thread.answered ++ [exchange], program := program }) with
    recorded := s.recorded ++ recordedBy program }

def read (s : Service) (id : Nat) (thread : Thread) (db : Database) : Option Service :=
  match thread.program with
  | .await (.queueName queueId) next =>
    let answer : Answer (.queueName queueId) := .ok (queueName db queueId)
    some (s.resume id thread ⟨_, answer⟩ (next answer))
  | .await (.queueDetails queueId) next =>
    let answer : Answer (.queueDetails queueId) := (queueDetails db queueId).mapError .repository
    some (s.resume id thread ⟨_, answer⟩ (next answer))
  | _ => none

/-- A database step, and the entry of its commit. -/
def afterSystem (order : TriggerOrder) (s : Service) (a : Action) (system : System) : Service :=
  { s with
    system := system
    past := system.db :: s.past
    commits := s.commits ++ match a with
      | .commit tid => (s.system.txns tid).toList.map fun t => (tid, s.system.commitEvent order t)
      | _ => [] }

def send (order : TriggerOrder) (s : Service) (id tid : Nat) (thread : Thread) : Option Service :=
  match thread.program with
  | .await (.run op) _ =>
    if thread.sent.isNone then
      (step order s.system (.start tid op)).map fun system =>
        { s.setThread id (some { thread with sent := some tid }) with system := system }
    else none
  | _ => none

def reply (s : Service) (id tid : Nat) (thread : Thread) (response : Response) : Option Service :=
  match thread.program with
  | .await (.run op) next =>
    (op.result? response).map fun result =>
      let answer : Answer (.run op) := result.mapError .repository
      { s.resume id thread ⟨_, answer⟩ (next answer) with reported := tid :: s.reported }
  | _ => none

def fail (s : Service) (id : Nat) (thread : Thread) : Option Service :=
  match thread.program with
  | .await q next =>
    let answer : Answer q := .error .unavailable
    some (s.resume id thread ⟨q, answer⟩ (next answer))
  | .done _ => none

/-- One step; an action that is not possible gives no state. -/
def step (order : TriggerOrder) (s : Service) : ServiceAction → Option Service
  | .system a =>
    match a with
    | .start _ _ => none
    | _ => (Retsu.step order s.system a).map (s.afterSystem order a)
  | .spawn id task => if (s.threads id).isNone then some (s.spawn id task) else none
  | .read id moment => do
    let thread ← s.threads id
    let db ← s.past[moment]?
    s.read id thread db
  | .send id tid => (s.threads id).bind (s.send order id tid)
  | .reply id => do
    let thread ← s.threads id
    let tid ← thread.sent
    let t ← s.system.txns tid
    match t.phase with
    | .committed response => s.reply id tid thread response
    | _ => none
  | .fail id => (s.threads id).bind (s.fail id)
  | .drop id => (s.threads id).map fun _ => s.setThread id none

/-! ## What a step can do -/

/-- The steps, with what holds where they are taken. -/
inductive Step (order : TriggerOrder) (s : Service) : ServiceAction → Service → Prop
  | system {a : Action} {system : System} (hstart : ∀ tid op, a ≠ .start tid op)
      (hstep : Retsu.step order s.system a = some system) :
      Step order s (.system a) (s.afterSystem order a system)
  | spawn {id : Nat} {task : Task} (hidle : s.threads id = none) :
      Step order s (.spawn id task) (s.spawn id task)
  | readName {id moment : Nat} {thread : Thread} {db : Database} {queueId : Uuid}
      {next : Answer (.queueName queueId) → Awaiting (Outcome × List Measurement)}
      (hthread : s.threads id = some thread) (hdb : db ∈ s.past)
      (hprogram : thread.program = .await (.queueName queueId) next) :
      Step order s (.read id moment) (s.resume id thread
        ⟨.queueName queueId, .ok (queueName db queueId)⟩ (next (.ok (queueName db queueId))))
  | readDetails {id moment : Nat} {thread : Thread} {db : Database} {queueId : Uuid}
      {next : Answer (.queueDetails queueId) → Awaiting (Outcome × List Measurement)}
      (hthread : s.threads id = some thread) (hdb : db ∈ s.past)
      (hprogram : thread.program = .await (.queueDetails queueId) next) :
      Step order s (.read id moment) (s.resume id thread
        ⟨.queueDetails queueId, (queueDetails db queueId).mapError .repository⟩
        (next ((queueDetails db queueId).mapError .repository)))
  | send {id tid : Nat} {thread : Thread} {op : Operation} {system : System}
      {next : Answer (.run op) → Awaiting (Outcome × List Measurement)}
      (hthread : s.threads id = some thread) (hsent : thread.sent = none)
      (hprogram : thread.program = .await (.run op) next)
      (hstep : Retsu.step order s.system (.start tid op) = some system) :
      Step order s (.send id tid)
        { s.setThread id (some { thread with sent := some tid }) with system := system }
  | reply {id tid : Nat} {thread : Thread} {t : Txn} {op : Operation} {response : Response}
      {result : Except RepositoryError op.Result}
      {next : Answer (.run op) → Awaiting (Outcome × List Measurement)}
      (hthread : s.threads id = some thread) (hsent : thread.sent = some tid)
      (hprogram : thread.program = .await (.run op) next) (ht : s.system.txns tid = some t)
      (hphase : t.phase = .committed response) (hresult : op.result? response = some result) :
      Step order s (.reply id)
        { s.resume id thread ⟨.run op, result.mapError .repository⟩
            (next (result.mapError .repository)) with reported := tid :: s.reported }
  | fail {id : Nat} {thread : Thread} {q : Query}
      {next : Answer q → Awaiting (Outcome × List Measurement)}
      (hthread : s.threads id = some thread) (hprogram : thread.program = .await q next) :
      Step order s (.fail id) (s.resume id thread ⟨q, .error .unavailable⟩
        (next (.error .unavailable)))
  | drop {id : Nat} {thread : Thread} (hthread : s.threads id = some thread) :
      Step order s (.drop id) (s.setThread id none)

/-- **Every step is one of these.** -/
theorem step_cases {order : TriggerOrder} {s s' : Service} {a : ServiceAction}
    (h : step order s a = some s') : Step order s a s' := by
  cases a with
  | system a =>
    have hstart : ∀ tid op, a ≠ .start tid op := by
      rintro tid op rfl
      simp [step] at h
    have hsome : (Retsu.step order s.system a).map (s.afterSystem order a) = some s' := by
      cases a <;> first | exact h | simp [step] at h
    obtain ⟨system, hstep, rfl⟩ := Option.map_eq_some_iff.mp hsome
    exact .system hstart hstep
  | spawn id task =>
    rw [step, Option.ite_none_right_eq_some, Option.some.injEq] at h
    obtain ⟨hidle, rfl⟩ := h
    exact .spawn (Option.isNone_iff_eq_none.mp hidle)
  | read id moment =>
    obtain ⟨thread, hthread, h⟩ := Option.bind_eq_some_iff.mp h
    obtain ⟨db, hdb, h⟩ := Option.bind_eq_some_iff.mp h
    have hdb := List.mem_of_getElem? hdb
    unfold read at h
    split at h
    · rename_i queueId next hprogram
      obtain rfl := Option.some.inj h
      exact .readName hthread hdb hprogram
    · rename_i queueId next hprogram
      obtain rfl := Option.some.inj h
      exact .readDetails hthread hdb hprogram
    · simp at h
  | send id tid =>
    obtain ⟨thread, hthread, h⟩ := Option.bind_eq_some_iff.mp h
    unfold send at h
    split at h
    · rename_i op next hprogram
      rw [Option.ite_none_right_eq_some] at h
      obtain ⟨hsent, h⟩ := h
      obtain ⟨system, hstep, rfl⟩ := Option.map_eq_some_iff.mp h
      exact .send hthread (Option.isNone_iff_eq_none.mp hsent) hprogram hstep
    · simp at h
  | reply id =>
    obtain ⟨thread, hthread, h⟩ := Option.bind_eq_some_iff.mp h
    obtain ⟨tid, hsent, h⟩ := Option.bind_eq_some_iff.mp h
    obtain ⟨t, ht, h⟩ := Option.bind_eq_some_iff.mp h
    split at h
    · rename_i response hphase
      unfold reply at h
      split at h
      · rename_i op next hprogram
        obtain ⟨result, hresult, rfl⟩ := Option.map_eq_some_iff.mp h
        exact .reply hthread hsent hprogram ht hphase hresult
      · simp at h
    · simp at h
  | fail id =>
    obtain ⟨thread, hthread, h⟩ := Option.bind_eq_some_iff.mp h
    unfold fail at h
    split at h
    · rename_i q next hprogram
      obtain rfl := Option.some.inj h
      exact .fail hthread hprogram
    · simp at h
  | drop id =>
    obtain ⟨thread, hthread, rfl⟩ := Option.map_eq_some_iff.mp h
    exact .drop hthread

/-- The states that the service reaches, in any interleaving and with any faults. -/
def Reachable (order : TriggerOrder) (s : Service) : Prop :=
  Execution (step order) anyAction .initial s

end Service

end Retsu
