/-
  Runs as sequences of effects.

  `Trace events db`: the events, each with an effect on the database that the ones before it have
  left, lead to `db`.  The calls of a history and the commits of concurrent transactions both make
  a trace, so what is proved of traces is proved of both.  Times need not be in order; only a
  message id is never enqueued twice.
-/
import Retsu.SessionInvariant

namespace Retsu

open Relational Concurrency

/-! ## Traces -/

inductive Trace : List Event → Database → Prop
  | start : Trace [] .empty
  /-- A statement draws from the sequence before it takes effect. -/
  | draw {events : List Event} {db : Database} {seq : Int} (trace : Trace events db)
      (hseq : db.enqueueOrderSequence ≤ seq) :
      Trace events { db with enqueueOrderSequence := seq }
  /-- `queues` is what the statement has read of the queue table. -/
  | event {events : List Event} {e : Event} {queues : List QueueRow}
      (trace : Trace events e.before)
      (hfresh : ∀ id ∈ e.op.enqueuedId, ∀ e' ∈ events, e'.op.enqueuedId ≠ some id)
      (hqueues : ∀ q ∈ queues, ∃ q' ∈ e.before.queue, q'.id = q.id ∧ q'.name = q.name)
      (heffect : Effect queues e.before e.now e.op e.response e.after) (hvalid : e.after.Valid) :
      Trace (events ++ [e]) e.after

variable {order : TriggerOrder} {events : List Event} {db : Database}

theorem Trace.valid (trace : Trace events db) : db.Valid := by
  induction trace with
  | start => exact Database.empty_valid
  | draw trace hseq ih => exact ih.draw hseq
  | event trace hfresh hqueues heffect hvalid ih => exact hvalid

/-- A trace cut at one of its events. -/
theorem Trace.split {past future : List Event} {e : Event}
    (trace : Trace (past ++ e :: future) db) :
    Trace past e.before ∧ Trace (past ++ [e]) e.after ∧
      (∀ id ∈ e.op.enqueuedId, ∀ e' ∈ past, e'.op.enqueuedId ≠ some id) ∧
      ∃ queues, (∀ q ∈ queues, ∃ q' ∈ e.before.queue, q'.id = q.id ∧ q'.name = q.name) ∧
        Effect queues e.before e.now e.op e.response e.after := by
  generalize hes : past ++ e :: future = es at trace
  induction trace generalizing future with
  | start => simp at hes
  | draw trace hseq ih => exact ih hes
  | @event events last queues trace hfresh hqueues heffect hvalid ih =>
    rcases List.eq_nil_or_concat' future with rfl | ⟨future, last', rfl⟩
    · obtain ⟨rfl, hlast⟩ := List.append_inj' hes rfl
      obtain rfl := List.singleton_inj.mp hlast
      exact ⟨trace, .event trace hfresh hqueues heffect hvalid, hfresh, queues, hqueues, heffect⟩
    · rw [← List.cons_append, ← List.append_assoc] at hes
      exact ih (List.append_inj' hes rfl).1

/-- Calls with fresh message ids make a trace. -/
theorem Trace.of_calls (order : TriggerOrder) {calls : List Call} (hfresh : FreshIds calls) :
    Trace (history order .empty calls) (finalDatabase order .empty calls) := by
  induction calls using List.reverseRecOn with
  | nil => exact .start
  | append_singleton calls c ih =>
    rw [history_append, finalDatabase_append]
    have htrace := ih (hfresh.mono (List.sublist_append_left calls [c]))
    obtain ⟨heffect, hvalid⟩ := c.op.run_effect htrace.valid order c.now
    exact .event (e := c.event order _) htrace hfresh.last (fun q hq => ⟨q, hq, rfl, rfl⟩) heffect
      hvalid

/-- The queue of a transaction after a step: one that it has read before, or is reading. -/
theorem Step.queue_origin {s s' : System} {a : Action} (hstep : Step order s a s') {tid : Nat}
    {t' : Txn} (ht' : s'.txns tid = some t') (hactive' : t'.phase.active) {q : QueueRow}
    (hq : q ∈ t'.queue) :
    q ∈ s.db.queue ∨ ∃ t, s.txns tid = some t ∧ t.phase.active ∧ q ∈ t.queue := by
  -- the transaction that the step has set, or another one
  have hset : ∀ {actor : Nat} {u : Txn}, s'.txns = (s.setTxn actor u).txns →
      (q ∈ u.queue → q ∈ s.db.queue ∨ ∃ t, s.txns actor = some t ∧ t.phase.active ∧ q ∈ t.queue) →
      q ∈ s.db.queue ∨ ∃ t, s.txns tid = some t ∧ t.phase.active ∧ q ∈ t.queue := by
    intro actor u htxns hu
    rw [htxns] at ht'
    rcases System.setTxn_eq_some.mp ht' with ⟨rfl, rfl⟩ | ⟨-, ht'⟩
    · exact hu hq
    · exact Or.inr ⟨t', ht', hactive', hq⟩
  cases hstep with
  | tick => exact Or.inr ⟨t', ht', hactive', hq⟩
  | start => exact hset rfl fun hq => absurd hq (by simp [Txn.begin])
  | @snapshot actor t ht hphase =>
    refine hset rfl fun hq => Or.inl ?_
    have hq : q ∈ t.op.target s.db := hq
    cases hop : t.op with
    | dequeueMessage => exact List.mem_of_find?_eq_some (hop ▸ hq)
    | _ => simp [hop, Operation.target] at hq
  | pass ht hphase | reject ht hphase | pick ht hphase | count ht hphase | lockCounter ht hphase
  | commit ht hphase =>
    exact hset rfl fun hq => Or.inr ⟨_, ht, by rw [hphase]; rfl, hq⟩
  | abort ht hactive => exact hset rfl fun hq => Or.inr ⟨_, ht, hactive, hq⟩

/-- The queue that a statement has read still exists under its name. -/
theorem Reachable.queue_read {s : System} (h : Reachable order s) :
    ∀ tid t, s.txns tid = some t → t.phase.active → ∀ q ∈ t.queue,
      ∃ q' ∈ s.db.queue, q'.id = q.id ∧ q'.name = q.name := by
  refine h.invariant (I := fun s => ∀ tid t, s.txns tid = some t → t.phase.active → ∀ q ∈ t.queue,
      ∃ q' ∈ s.db.queue, q'.id = q.id ∧ q'.name = q.name)
    (by simp [System.initial]) fun s a s' hrun ih _ hstep tid t' ht' hactive' q hq => ?_
  have hinv := Reachable.inv hrun
  have hstep := step_cases hstep
  have hread : ∃ q' ∈ s.db.queue, q'.id = q.id ∧ q'.name = q.name := by
    rcases hstep.queue_origin ht' hactive' hq with hq | ⟨t, ht, hactive, hq⟩
    · exact ⟨q, hq, rfl, rfl⟩
    · exact ih tid t ht hactive q hq
  rcases hstep.committed with ⟨-, hsame, -⟩ | ⟨actor, u, rfl, hu, huactive, rfl⟩
  · rw [hsame]
    exact hread
  · obtain ⟨heffect, -⟩ := (hinv.txn actor u hu huactive).execute_effect hinv.valid order
    obtain ⟨q', hq', hid, hname⟩ := hread
    obtain ⟨q'', hq'', hid', hname'⟩ := heffect.queue_kept hinv.valid q' hq'
    exact ⟨q'', hq'', hid'.trans hid, hname'.trans hname⟩

/-- The commits of concurrent transactions make a trace. -/
theorem Trace.of_log {s : System} (h : Reachable order s) : Trace s.log s.db := by
  refine h.invariant (I := fun s => Trace s.log s.db) .start fun s a s' hrun ih _ hstep => ?_
  have hinv := Reachable.inv hrun
  cases step_cases hstep with
  | @commit tid t ht hphase hcounters =>
    have hactive : t.phase.active := by rw [hphase]; rfl
    obtain ⟨heffect, hvalid⟩ := (hinv.txn tid t ht hactive).execute_effect hinv.valid order
    refine .event (e := s.commitEvent order t) ih (fun id hid e he hop => ?_)
      (fun q hq => Reachable.queue_read hrun tid t ht hactive q (Option.mem_toList.mp hq)) heffect
      hvalid
    exact ((Reachable.logInv hrun).enqueuedId e he id hop).2 tid t ht hactive hid
  | @snapshot tid t ht hphase =>
    refine .draw ih ?_
    split <;> omega
  | _ => exact ih

/-! ## Where messages come from -/

/-- The event stored the message: these columns no lease changes. -/
structure Event.Stores (e : Event) (m : QueueMessage) : Prop where
  stored : e.response = .enqueueMessage
  enqueues : ∃ message ttl, e.op = .enqueueMessage m.queueId message ttl ∧ message.id = m.id ∧
    message.payload.toByteArray = m.payload ∧ message.priority.rank = m.priority

theorem Event.Stores.enqueuedId {e : Event} {m : QueueMessage} (h : e.Stores m) :
    e.op.enqueuedId = some m.id := by
  obtain ⟨message, ttl, hop, hid, -⟩ := h.enqueues
  rw [hop, ← hid]
  rfl

/-- Every live message was stored by an event of the trace. -/
theorem Trace.provenance (trace : Trace events db) :
    ∀ m ∈ db.queueMessage, ∃ e ∈ events, e.Stores m := by
  induction trace with
  | start => simp [Database.empty]
  | draw trace hseq ih => exact ih
  | @event events e queues trace hfresh hqueues heffect hvalid ih =>
    intro m' hm'
    have horigin := heffect.origin trace.valid hm'
    generalize hop : e.op = op at horigin
    generalize hresponse : e.response = response at horigin
    cases horigin with
    | kept hm =>
      obtain ⟨e', he', hstores⟩ := ih m' hm
      exact ⟨e', List.mem_append_left _ he', hstores⟩
    | enqueued hid =>
      exact ⟨e, by simp, hresponse, _, _, hop, rfl, rfl, rfl⟩
    | leased hqueue hchecked hm =>
      obtain ⟨e', he', hstores, henqueues⟩ := ih _ hm
      exact ⟨e', List.mem_append_left _ he', hstores, henqueues⟩

/-- Every archived message was enqueued by an event of the trace. -/
theorem Trace.deadLetter_known (trace : Trace events db) :
    ∀ d ∈ db.queueDeadLetterMessage, ∃ e ∈ events, e.op.enqueuedId = some d.id := by
  induction trace with
  | start => simp [Database.empty]
  | draw trace hseq ih => exact ih
  | @event events e queues trace hfresh hqueues heffect hvalid ih =>
    intro d hd
    rcases heffect.deadLetter_id hd with hd | ⟨m, hm, hid⟩
    · obtain ⟨e', he', hknown⟩ := ih d hd
      exact ⟨e', List.mem_append_left _ he', hknown⟩
    · obtain ⟨e', he', hstores⟩ := trace.provenance m hm
      exact ⟨e', List.mem_append_left _ he', hid ▸ hstores.enqueuedId⟩

/-- A message is never live and archived at once. -/
theorem Trace.disjoint (trace : Trace events db) :
    ∀ m ∈ db.queueMessage, ∀ d ∈ db.queueDeadLetterMessage, d.id ≠ m.id := by
  induction trace with
  | start => simp [Database.empty]
  | draw trace hseq ih => exact ih
  | @event events e queues trace hfresh hqueues heffect hvalid ih =>
    refine heffect.disjoint trace.valid ih fun id hid d hd heq => ?_
    obtain ⟨e', he', hknown⟩ := trace.deadLetter_known d hd
    exact hfresh id hid e' he' (heq ▸ hknown)

end Retsu
