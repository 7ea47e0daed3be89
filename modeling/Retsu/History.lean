/-
  Histories: runs of operations one after the other, with everything that happened in them.

  `history` lists the events of a sequence of calls, `finalDatabase` is the database they
  leave.  `Run events db` says the same as a relation that grows at the end, for calls whose
  times do not decrease and whose message ids are fresh; `run_of_calls` connects the two.  The
  invariants of whole runs are proved by induction on `Run`, one event at a time.
-/
import Mathlib.Data.List.Induction
import Retsu.Lineage

namespace Retsu

open Relational

/-! ## Calls and events -/

structure Call where
  now : Int
  op : Operation

structure Event where
  before : Database
  now : Int
  op : Operation
  response : Response
  after : Database

/-- What the call does in a given database. -/
def Call.event (order : TriggerOrder) (db : Database) (c : Call) : Event where
  before := db
  now := c.now
  op := c.op
  response := (c.op.run order db c.now).2
  after := (c.op.run order db c.now).1

def history (order : TriggerOrder) (db : Database) : List Call → List Event
  | [] => []
  | c :: calls => c.event order db :: history order (c.event order db).after calls

def finalDatabase (order : TriggerOrder) (db : Database) (calls : List Call) : Database :=
  calls.foldl (fun db c => (c.event order db).after) db

/-- Time never runs backwards. -/
def Chronological (calls : List Call) : Prop := (calls.map (·.now)).Pairwise (· ≤ ·)

instance (calls : List Call) : Decidable (Chronological calls) :=
  inferInstanceAs (Decidable ((calls.map (·.now)).Pairwise (· ≤ ·)))

/-- No message id is used twice. -/
def FreshIds (calls : List Call) : Prop := (calls.filterMap (·.op.enqueuedId)).Nodup

instance (calls : List Call) : Decidable (FreshIds calls) :=
  inferInstanceAs (Decidable (calls.filterMap (·.op.enqueuedId)).Nodup)

/-- The row as it was when it was enqueued: what no statement changes. -/
def QueueMessage.asEnqueued (m : QueueMessage) : QueueMessage :=
  { m with
    state := .ready
    deliveryAttempts := 0
    receiptHandle := none
    availableAfter := m.enqueuedAt
    lastDeliveredAt := none }

/-- The event stored this row. -/
def Event.Enqueues (e : Event) (row : QueueMessage) : Prop :=
  ∃ queueId message ttl, e.op = .enqueueMessage queueId message ttl ∧
    e.response = .enqueueMessage ∧
    row = message.row queueId ttl e.before.enqueueOrderSequence e.now

theorem Event.Enqueues.enqueuedId {e : Event} {row : QueueMessage} (henqueues : e.Enqueues row) :
    e.op.enqueuedId = some row.id := by
  obtain ⟨queueId, message, ttl, hop, -, rfl⟩ := henqueues
  rw [hop]
  rfl

/-! ## Runs -/

/-- A run from the empty database, as the events in it and the database it has reached. -/
inductive Run (order : TriggerOrder) : List Event → Database → Prop
  | start : Run order [] Database.empty
  | step {events : List Event} {db : Database} (run : Run order events db) (c : Call)
      (htime : ∀ e ∈ events, e.now ≤ c.now)
      (hfresh : ∀ id ∈ c.op.enqueuedId, ∀ e ∈ events, e.op.enqueuedId ≠ some id) :
      Run order (events ++ [c.event order db]) (c.event order db).after

variable {order : TriggerOrder} {events : List Event} {db : Database}

theorem history_append (order : TriggerOrder) (db : Database) (calls more : List Call) :
    history order db (calls ++ more) =
      history order db calls ++ history order (finalDatabase order db calls) more := by
  induction calls generalizing db with
  | nil => rfl
  | cons c calls ih => simp only [List.cons_append, history, ih, finalDatabase, List.foldl_cons]

theorem finalDatabase_append (order : TriggerOrder) (db : Database) (calls more : List Call) :
    finalDatabase order db (calls ++ more) =
      finalDatabase order (finalDatabase order db calls) more := by
  simp only [finalDatabase, List.foldl_append]

/-- The events of a history are its calls, in their order. -/
theorem history_calls (order : TriggerOrder) (db : Database) (calls : List Call) :
    (history order db calls).map (fun e => (⟨e.now, e.op⟩ : Call)) = calls := by
  induction calls generalizing db with
  | nil => rfl
  | cons c calls ih =>
    simp only [history, List.map_cons, ih]
    rfl

theorem mem_history {order : TriggerOrder} {db : Database} {calls : List Call} {e : Event}
    (he : e ∈ history order db calls) : ⟨e.now, e.op⟩ ∈ calls := by
  have := List.mem_map_of_mem (f := fun e : Event => (⟨e.now, e.op⟩ : Call)) he
  rwa [history_calls] at this

/-- A call that follows others brings along an id that none of them does. -/
theorem FreshIds.last {calls : List Call} {c : Call} (h : FreshIds (calls ++ [c])) :
    ∀ id ∈ c.op.enqueuedId, ∀ e ∈ history order .empty calls, e.op.enqueuedId ≠ some id := by
  rw [FreshIds, List.filterMap_append, List.nodup_append] at h
  intro id hid e he hop
  refine h.2.2 id (List.mem_filterMap.mpr ⟨_, mem_history he, hop⟩) id ?_ rfl
  exact List.mem_filterMap.mpr ⟨c, by simp, Option.mem_def.mp hid⟩

/-- A call that follows others is no earlier than any of them. -/
theorem Chronological.last {calls : List Call} {c : Call} (h : Chronological (calls ++ [c])) :
    ∀ c' ∈ calls, c'.now ≤ c.now := by
  rw [Chronological, List.map_append, List.pairwise_append] at h
  intro c' hc'
  exact h.2.2 _ (List.mem_map_of_mem hc') _ (by simp)

theorem Chronological.mono {calls some : List Call} (h : Chronological calls)
    (hsub : some.Sublist calls) : Chronological some :=
  h.sublist (hsub.map _)

theorem FreshIds.mono {calls some : List Call} (h : FreshIds calls) (hsub : some.Sublist calls) :
    FreshIds some :=
  h.sublist (hsub.filterMap _)

/-- Calls in chronological order with fresh ids make a run. -/
theorem run_of_calls (order : TriggerOrder) {calls : List Call} (htime : Chronological calls)
    (hfresh : FreshIds calls) :
    Run order (history order .empty calls) (finalDatabase order .empty calls) := by
  induction calls using List.reverseRecOn with
  | nil => exact .start
  | append_singleton calls c ih =>
    rw [history_append, finalDatabase_append]
    have hbefore := List.sublist_append_left calls [c]
    exact .step (ih (htime.mono hbefore) (hfresh.mono hbefore)) c
      (fun e he => htime.last _ (mem_history he)) hfresh.last

/-- A run cut at one of its events. -/
theorem Run.split {before after : List Event} {e : Event}
    (run : Run order (before ++ e :: after) db) :
    Run order before e.before ∧ Run order (before ++ [e]) e.after ∧
      e = Call.event order e.before ⟨e.now, e.op⟩ ∧
      (∀ e' ∈ before, e'.now ≤ e.now) ∧ ∀ e' ∈ after, e.now ≤ e'.now := by
  induction after using List.reverseRecOn generalizing db with
  | nil =>
    generalize hes : before ++ [e] = es at run
    cases run with
    | start => simp at hes
    | step run c htime hfresh =>
      obtain ⟨rfl, hlast⟩ := List.append_inj' hes rfl
      obtain rfl := List.singleton_inj.mp hlast
      exact ⟨run, .step run c htime hfresh, rfl, htime, by simp⟩
  | append_singleton after last ih =>
    generalize hes : before ++ e :: (after ++ [last]) = es at run
    cases run with
    | start => simp at hes
    | @step events _ run c htime hfresh =>
      rw [← List.cons_append, ← List.append_assoc] at hes
      obtain ⟨rfl, hlast⟩ := List.append_inj' hes rfl
      obtain rfl := List.singleton_inj.mp hlast
      obtain ⟨hbefore, hupto, hevent, hpast, hfuture⟩ := ih run
      refine ⟨hbefore, hupto, hevent, hpast, List.forall_mem_append.mpr ⟨hfuture, ?_⟩⟩
      rintro e' he'
      rw [List.mem_singleton.mp he']
      exact htime e (by simp)

/-- Every event of a run is one of its steps. -/
theorem Run.cut {e : Event} (run : Run order events db) (he : e ∈ events) :
    ∃ before after, events = before ++ e :: after ∧ Run order before e.before ∧
      Run order (before ++ [e]) e.after ∧ e = Call.event order e.before ⟨e.now, e.op⟩ ∧
      (∀ e' ∈ before, e'.now ≤ e.now) ∧ ∀ e' ∈ after, e.now ≤ e'.now := by
  obtain ⟨before, after, rfl⟩ := List.append_of_mem he
  exact ⟨before, after, rfl, run.split⟩

/-- The events determine the database. -/
theorem Run.unique {db' : Database} (run : Run order events db) (run' : Run order events db') :
    db = db' := by
  cases run with
  | start =>
    generalize hes : ([] : List Event) = es at run'
    cases run' with
    | start => rfl
    | step => simp at hes
  | @step events _ run c htime hfresh =>
    generalize hes : events ++ [c.event order _] = es at run'
    cases run' with
    | start => simp at hes
    | step =>
      obtain ⟨-, hlast⟩ := List.append_inj' hes rfl
      exact congrArg Event.after (List.singleton_inj.mp hlast)

/-- Only one event brings along a message id. -/
theorem Run.fresh (run : Run order events db) {e e' : Event} (he : e ∈ events) (he' : e' ∈ events)
    {id : Uuid} (hid : e.op.enqueuedId = some id) (hid' : e'.op.enqueuedId = some id) : e = e' := by
  induction run with
  | start => simp at he
  | @step events db run c htime hfresh ih =>
    have hnew : c.op.enqueuedId = some id → ∀ x ∈ events, x.op.enqueuedId ≠ some id := hfresh id
    rcases List.mem_append.mp he with he | he <;> rcases List.mem_append.mp he' with he' | he'
    · exact ih he he'
    · rw [List.mem_singleton.mp he'] at hid'
      exact absurd hid (hnew hid' e he)
    · rw [List.mem_singleton.mp he] at hid
      exact absurd hid' (hnew hid e' he')
    · rw [List.mem_singleton.mp he, List.mem_singleton.mp he']

/-! ## Invariants of runs -/

theorem Run.valid (run : Run order events db) : db.Valid := by
  induction run with
  | start => exact Database.empty_valid
  | step run c htime hfresh ih => exact (c.op.run_effect ih order c.now).2

/-- Operations keep a database valid, whatever their times and identifiers. -/
theorem finalDatabase_valid {db : Database} (h : db.Valid) (order : TriggerOrder)
    (calls : List Call) : (finalDatabase order db calls).Valid := by
  induction calls generalizing db with
  | nil => exact h
  | cons c calls ih => exact ih (c.op.run_effect h order c.now).2

/-- Every event of a history is a call on a valid database, and has an effect. -/
theorem event_of_history {db : Database} (h : db.Valid) {order : TriggerOrder} {calls : List Call}
    {e : Event} (he : e ∈ history order db calls) :
    e.before.Valid ∧ e = Call.event order e.before ⟨e.now, e.op⟩ ∧
      Effect e.before.queue e.before e.now e.op e.response e.after := by
  induction calls generalizing db with
  | nil => simp [history] at he
  | cons c calls ih =>
    obtain ⟨heffect, hvalid⟩ := c.op.run_effect h order c.now
    rcases List.mem_cons.mp he with rfl | he
    · exact ⟨h, rfl, heffect⟩
    · exact ih hvalid he

/-- Every event of a run has an effect on a valid database. -/
theorem Run.effect (run : Run order events db) {e : Event} (he : e ∈ events) :
    e.before.Valid ∧ Effect e.before.queue e.before e.now e.op e.response e.after := by
  obtain ⟨before, after, -, hbefore, -, hevent, -⟩ := run.cut he
  refine ⟨hbefore.valid, ?_⟩
  rw [hevent]
  exact (e.op.run_effect hbefore.valid order e.now).1

/-- Running alone, an enqueue stores the row with the next value of the sequence. -/
theorem enqueueMessage_cases (db : Database) (now : Int) (queueId : Uuid) (message : Message)
    (ttl : UInt32) :
    let result := enqueueMessage db now queueId message ttl
    result.1.enqueueOrderSequence = db.enqueueOrderSequence + 1 ∧
      ((result.2 ≠ .enqueueMessage ∧ result.1.queueMessage = db.queueMessage) ∨
        (result.2 = .enqueueMessage ∧ result.1.queueMessage = db.queueMessage ++
          [message.row queueId ttl db.enqueueOrderSequence now])) := by
  intro result
  cases hexec : executeEnqueue { db with enqueueOrderSequence := db.enqueueOrderSequence + 1 }
      (message.row queueId ttl db.enqueueOrderSequence now) with
  | error e =>
    have : result = ({ db with enqueueOrderSequence := db.enqueueOrderSequence + 1 },
        .failed (.sql e)) := by
      simp only [result, enqueueMessage, hexec, settle]
    rw [this]
    exact ⟨rfl, Or.inl ⟨by simp, rfl⟩⟩
  | ok stored =>
    have hresult : result = (stored.1, .enqueueMessage) := by
      simp only [result, enqueueMessage, hexec, settle]
    rw [executeEnqueue, bind_eq_ok] at hexec
    obtain ⟨db', hexec, hstored⟩ := hexec
    rw [pure_eq_ok] at hstored
    rw [Statement.exec, guard_eq_ok] at hexec
    obtain ⟨-, hexec⟩ := hexec
    rw [bind_eq_ok] at hexec
    obtain ⟨shards, -, hexec⟩ := hexec
    rw [pure_eq_ok] at hexec
    rw [hresult, ← hstored, ← hexec]
    refine ⟨rfl, Or.inr ⟨rfl, ?_⟩⟩
    simp [Statement.apply, Statement.insert, applyChanges, List.filterMap_some]

/-- A row after an event: it was there, or the event stored it, or it leased the row before. -/
inductive EventOrigin (e : Event) (m' : QueueMessage) : Prop
  | kept (hm : m' ∈ e.before.queueMessage)
  | enqueued (hid : ∀ m ∈ e.before.queueMessage, m.id ≠ m'.id) (henqueues : e.Enqueues m')
  | leased {queue : QueueRow} {receiptHandle : Uuid} {m : QueueMessage}
      (hqueue : queue ∈ e.before.queue) (hop : e.op = .dequeueMessage queue.id receiptHandle)
      (hdelivered : e.response.delivered = some m.id) (hm : m ∈ e.before.queueMessage)
      (hcandidate : isCandidate queue e.now m)
      (hlease : m' = m.lease receiptHandle e.now queue.visibilityTimeoutSeconds)

theorem Call.origin {db : Database} (h : db.Valid) (order : TriggerOrder) (c : Call)
    {m' : QueueMessage} (hm' : m' ∈ (c.event order db).after.queueMessage) :
    EventOrigin (c.event order db) m' := by
  obtain ⟨now, op⟩ := c
  have heffect := (op.run_effect h order now).1
  have horigin := heffect.origin h hm'
  by_cases hmem : m' ∈ db.queueMessage
  · exact .kept hmem
  generalize hr : (op.run order db now).2 = response at horigin
  cases horigin with
  | kept hm => exact absurd hm hmem
  | @enqueued queueId message ttl o hid =>
    have hcases := enqueueMessage_cases db now queueId message ttl
    simp only [Call.event, Operation.run] at hm' hr
    rcases hcases.2 with ⟨-, hsame⟩ | ⟨-, happend⟩
    · rw [hsame] at hm'
      exact absurd hm' hmem
    · rw [happend] at hm'
      rcases List.mem_append.mp hm' with hm' | hm'
      · exact absurd hm' hmem
      · exact .enqueued hid ⟨queueId, message, ttl, rfl, hr, List.mem_singleton.mp hm'⟩
  | @leased queue receiptHandle m deadLettered outcome hqueue hchecked hm hcandidate htimely
      houtcome =>
    refine .leased hqueue rfl ?_ hm hcandidate rfl
    simp only [Call.event, hr]
    cases houtcome
    rfl

/-- Every live message was stored by an event of the run. -/
theorem Run.provenance (run : Run order events db) :
    ∀ m ∈ db.queueMessage, ∃ e ∈ events, e.Enqueues m.asEnqueued := by
  induction run with
  | start => simp [Database.empty]
  | step run c htime hfresh ih =>
    intro m' hm'
    cases Call.origin run.valid order c hm' with
    | kept hm =>
      obtain ⟨e, he, henqueues⟩ := ih m' hm
      exact ⟨e, List.mem_append_left _ he, henqueues⟩
    | enqueued hid henqueues =>
      refine ⟨_, List.mem_append_right _ (List.mem_singleton.mpr rfl), ?_⟩
      obtain ⟨queueId, message, ttl, hop, hresponse, rfl⟩ := henqueues
      exact ⟨queueId, message, ttl, hop, hresponse, rfl⟩
    | leased hqueue hop hdelivered hm hcandidate hlease =>
      obtain ⟨e, he, henqueues⟩ := ih _ hm
      exact ⟨e, List.mem_append_left _ he, hlease ▸ henqueues⟩

/-- Every archived message was stored by an event of the run. -/
theorem Run.deadLetter_known (run : Run order events db) :
    ∀ d ∈ db.queueDeadLetterMessage, ∃ e ∈ events, e.op.enqueuedId = some d.id := by
  induction run with
  | start => simp [Database.empty]
  | @step events db run c htime hfresh ih =>
    intro d hd
    have heffect := (c.op.run_effect run.valid order c.now).1
    have horigin := heffect.deadLetter_origin hd
    generalize (c.op.run order db c.now).2 = response at horigin
    obtain ⟨now, op⟩ := c
    cases horigin with
    | kept hd =>
      obtain ⟨e, he, hid⟩ := ih d hd
      exact ⟨e, List.mem_append_left _ he, hid⟩
    | deadLettered hqueue hm hexhausted hd hgone =>
      obtain ⟨e, he, queueId, message, ttl, hop, -, hrow⟩ := run.provenance _ hm
      refine ⟨e, List.mem_append_left _ he, ?_⟩
      obtain ⟨delivered, -, rfl⟩ := deadLetter_eq_ok.mp hd
      rw [hop]
      exact congrArg some (congrArg QueueMessage.id hrow).symm

/-- A message is never live and archived at once. -/
theorem Run.disjoint (run : Run order events db) :
    ∀ m ∈ db.queueMessage, ∀ d ∈ db.queueDeadLetterMessage, d.id ≠ m.id := by
  induction run with
  | start => simp [Database.empty]
  | step run c htime hfresh ih =>
    refine (c.op.run_effect run.valid order c.now).1.disjoint run.valid ih fun id hid d hd heq => ?_
    obtain ⟨e, he, hknown⟩ := run.deadLetter_known d hd
    exact hfresh id hid e he (heq ▸ hknown)

/-- Nothing was enqueued in the future. -/
theorem Run.enqueuedAt_le (run : Run order events db) {now : Int}
    (hnow : ∀ e ∈ events, e.now ≤ now) : ∀ m ∈ db.queueMessage, m.enqueuedAt ≤ now := by
  intro m hm
  obtain ⟨e, he, queueId, message, ttl, -, -, hrow⟩ := run.provenance m hm
  have : m.enqueuedAt = e.now := congrArg QueueMessage.enqueuedAt hrow
  rw [this]
  exact hnow e he

/-- No dequeue in a run ever fails. -/
theorem Run.dequeue_succeeds (run : Run order events db) {e : Event} (he : e ∈ events)
    {queueId receiptHandle : Uuid} (hop : e.op = .dequeueMessage queueId receiptHandle) :
    ∃ outcome, e.response = .dequeueMessage outcome := by
  obtain ⟨before, after, -, hbefore, -, hevent, htime, -⟩ := run.cut he
  have hresponse : e.response = (dequeueMessage order e.before e.now queueId receiptHandle).2 := by
    rw [hevent, hop]
    rfl
  rw [hresponse]
  cases hfind : targetQueue e.before queueId with
  | none =>
    simp only [dequeueMessage, hfind]
    exact ⟨.queueNotFound, rfl⟩
  | some queue =>
    obtain ⟨stored, shards, outcome, -, hok⟩ := dequeueMessage_eq hbefore.valid order receiptHandle
      hfind hbefore.disjoint (hbefore.enqueuedAt_le htime)
    rw [hok]
    exact ⟨outcome, rfl⟩

/-- An expired cleanup never fails. -/
theorem Run.cleanup_succeeds (run : Run order events db) {e : Event} (he : e ∈ events)
    {batchSize : UInt32} (hop : e.op = .processExpiredMessages batchSize) :
    ∃ summary, e.response = .processExpiredMessages summary := by
  obtain ⟨before, after, -, hbefore, -, hevent, -⟩ := run.cut he
  obtain ⟨summary, hresponse, -⟩ := processExpiredMessages_effect hbefore.valid e.now batchSize
  rw [hevent, hop]
  exact ⟨summary, hresponse⟩

/-- A purge never fails. -/
theorem Run.purge_succeeds (run : Run order events db) {e : Event} (he : e ∈ events)
    {retentionSeconds : Int} {batchSize : UInt32}
    (hop : e.op = .purgeDeadLetterMessages retentionSeconds batchSize) :
    ∃ summary, e.response = .purgeDeadLetterMessages summary := by
  obtain ⟨before, after, -, hbefore, -, hevent, -⟩ := run.cut he
  obtain ⟨summary, hresponse, -⟩ :=
    purgeDeadLetterMessages_effect hbefore.valid e.now retentionSeconds batchSize
  rw [hevent, hop]
  exact ⟨summary, hresponse⟩

/-! ## Values for examples -/

theorem oneAttempt_inRange : maxDeliveryAttemptsInRange 1 := by decide

theorem fiveAttempts_inRange : maxDeliveryAttemptsInRange 5 := by decide

/-- Lowers the limit to one attempt. -/
def oneAttemptUpdate : QueueConfigurationUpdate := ⟨none, some 1, none, rfl, oneAttempt_inRange, rfl⟩

/-- A queue with leases of one second. -/
def ordersQueue (maxDeliveryAttempts : UInt16)
    (h : maxDeliveryAttemptsInRange maxDeliveryAttempts) : Queue where
  id := 1
  name := ⟨"orders", by decide⟩
  settings := ⟨1, maxDeliveryAttempts, 604800, by decide, h, by decide⟩

def orderMessage (id : Uuid) : Message := ⟨id, "order", .high, none, by simp⟩

end Retsu
