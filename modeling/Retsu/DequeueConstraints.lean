/-
  When a dequeue is rejected by a constraint.

  `CURRENT_TIMESTAMP` is the start of a transaction and the snapshot comes later, so a dequeue
  can find a message that was enqueued after its own timestamp.  The lease it writes then has
  `last_delivered_at < enqueued_at`, which the table rejects.  Nothing else can go wrong: a
  dequeue that locks no such message succeeds.
-/
import Retsu.SessionInvariant

namespace Retsu

open Relational Concurrency

variable {order : TriggerOrder} {s s' : System} {tid : Nat} {t : Txn}

/-- Every dequeue that has come to its end has succeeded, and has written valid rows. -/
def System.DequeuesSucceed (s : System) : Prop :=
  ∀ e ∈ s.log, ∀ queueId receiptHandle, e.op = .dequeueMessage queueId receiptHandle →
    (∃ outcome, e.response = .dequeueMessage outcome) ∧
      (∀ m ∈ e.after.queueMessage, Checked queueMessageChecks m) ∧
      ∀ d ∈ e.after.queueDeadLetterMessage, Checked queueDeadLetterMessageChecks d

/-- If the action locks a message for a lease, then not one that was enqueued after the
    timestamp of the transaction. -/
def LocksTimely (s : System) : Action → Prop
  | .visit tid .lease => ∀ t ∈ s.txns tid, ∀ m ∈ s.db.queueMessage,
      (t.scan .lease).next = some m.id → s.locks.blocks tid (.message m.id) = false →
        t.wants .lease m → m.enqueuedAt ≤ t.now
  | _ => True

instance (s : System) (a : Action) : Decidable (LocksTimely s a) :=
  match a with
  | .visit tid .lease => inferInstanceAs (Decidable (∀ t ∈ s.txns tid, ∀ m ∈ s.db.queueMessage,
      (t.scan .lease).next = some m.id → s.locks.blocks tid (.message m.id) = false →
        t.wants .lease m → m.enqueuedAt ≤ t.now))
  | .visit _ .delete | .tick _ | .start _ _ | .snapshot _ | .count _ | .lockCounter _ | .commit _
  | .abort _ => inferInstanceAs (Decidable True)

/-- The messages that the transaction has picked for a lease were enqueued before it began. -/
def Txn.Timely (s : System) (t : Txn) : Prop :=
  ∀ m ∈ s.db.queueMessage, m.id ∈ (t.scan .lease).picked → m.enqueuedAt ≤ t.now

/-! ## One dequeue -/

/-- **A dequeue succeeds exactly when the message it has locked was enqueued before it began.** -/
theorem System.Inv.dequeue_succeeds_iff (h : s.Inv) (order : TriggerOrder) (ht : s.txns tid = some t)
    (hactive : t.phase.active) {queueId receiptHandle : Uuid}
    (hop : t.op = .dequeueMessage queueId receiptHandle) :
    (∃ outcome, (t.execute order s.db).2 = .dequeueMessage outcome) ↔ t.Timely s := by
  have hinv := h.txn tid t ht hactive
  have hpurge : t.op.isPurge = false := by rw [hop]; rfl
  cases hqueue : t.queue with
  | none =>
    simp only [Txn.execute, hop, hqueue]
    refine ⟨fun _ m hm hid => ?_, fun _ => ⟨_, rfl⟩⟩
    obtain ⟨r, -, -, hwants⟩ := (Txn.recheck_message h.valid hpurge).mp (hinv.picked .lease _ hid).2
    simp [Txn.wants, hop, hqueue] at hwants
  | some queue =>
    obtain ⟨exhausted, candidate, hsel, hexhausted, hcandidate, hleased⟩ :=
      hinv.dequeueSelection h.valid hqueue
    have hfresh : ∀ m ∈ exhausted, ∀ d ∈ s.db.queueDeadLetterMessage, d.id ≠ m.id :=
      fun m hm => h.disjoint m (hsel.exhausted m hm).1
    -- the candidate is the one row that may have been picked
    have htimely : t.Timely s ↔ ∀ m ∈ candidate, m.enqueuedAt ≤ t.now :=
      ⟨fun htimely m hm =>
        htimely m (hsel.candidate m hm).1 ((hleased m (hsel.candidate m hm).1).mpr hm),
      fun hall m hm hid => hall m ((hleased m hm).mp hid)⟩
    rw [htimely]
    simp only [Txn.execute, hop, hqueue]
    rw [← hexhausted, ← hcandidate]
    constructor
    · rintro ⟨outcome, hresponse⟩ m hm
      by_contra hlate
      rw [executeDequeue_late order receiptHandle h.valid hsel hfresh hm (not_le.mp hlate)]
        at hresponse
      simp [settle] at hresponse
    · intro hall
      obtain ⟨stored, shards, outcome, -, hrun⟩ :=
        executeDequeue_delivers order receiptHandle h.valid hsel hfresh hall
      rw [hrun]
      exact ⟨outcome, rfl⟩

/-! ## Whole runs -/

/-- When no late message is locked, none has been picked. -/
theorem timely_of_execution (h : Execution (step order) LocksTimely .initial s) :
    ∀ tid t, s.txns tid = some t → t.phase.active → t.Timely s := by
  refine h.invariant (I := fun s => ∀ tid t, s.txns tid = some t → t.phase.active → t.Timely s)
    (by simp [System.initial]) fun s a s' hrun ih hallowed hstep => ?_
  have hinv := Reachable.inv hrun.any
  have hstep := step_cases hstep
  intro tid t' ht' hactive' m' hm' hid
  obtain ⟨t, ht, hactive, hop, hnow, hpicked⟩ := hstep.picked_origin ht' hactive' hid
  rw [← hnow]
  have htinv := hinv.txn tid t ht hactive
  rcases hstep.committed with ⟨-, -, hmessages, -⟩ | ⟨actor, u, rfl, hu, huactive, rfl⟩
  · rw [hmessages] at hm'
    rcases hpicked with hpicked | ⟨rfl, hnext, hfree, hrecheck⟩
    · exact ih tid t ht hactive m' hm' hpicked
    · cases hpurge : t.op.isPurge with
      | true =>
        obtain ⟨d, -, -, hwants⟩ := (Txn.recheck_deadLetter hinv.valid hpurge).mp hrecheck
        simp [Txn.wantsDeadLetter] at hwants
      | false =>
        obtain ⟨m, hm, hmid, hwants⟩ := (Txn.recheck_message hinv.valid hpurge).mp hrecheck
        obtain rfl := eq_of_key_eq hinv.valid.messages.ids hm hm' hmid
        simp only [Txn.lock, hpurge, Bool.false_eq_true, if_false] at hfree
        exact hallowed t ht m hm hnext hfree hwants
  · -- a commit of another transaction leaves the picked row alone
    have hpicked : m'.id ∈ (t.scan .lease).picked :=
      hpicked.resolve_right fun hvisit => by simp at hvisit
    obtain ⟨-, hother⟩ := s.setTxn_ended rfl ht' hactive'
    obtain ⟨hpurge, m, hm, hmid, -⟩ := htinv.leased_row hinv.valid hpicked
    have hafter := ((hinv.txn actor u hu huactive).execute_effect hinv.valid order).2
    have hkept := hinv.picked_message_kept order hu huactive ht hactive hother hpurge hm
      (hmid ▸ hpicked)
    obtain rfl : m = m' := eq_of_key_eq hafter.messages.ids hkept hm' hmid
    exact ih tid t ht hactive m hm hpicked

/-- A run in which no dequeue locks a message that was enqueued after the dequeue began has no
    dequeue that fails. -/
theorem dequeues_succeed (h : Execution (step order) LocksTimely .initial s) :
    s.DequeuesSucceed := by
  refine h.invariant (I := System.DequeuesSucceed) (by simp [System.DequeuesSucceed, System.initial])
    fun s a s' hrun ih _ hstep => ?_
  have hinv := Reachable.inv hrun.any
  rcases (step_cases hstep).committed with ⟨hsame, -⟩ | ⟨tid, t, rfl, ht, hactive, rfl⟩
  · unfold System.DequeuesSucceed
    rw [hsame]
    exact ih
  refine List.forall_mem_append.mpr ⟨ih, List.forall_mem_singleton.mpr ?_⟩
  intro queueId receiptHandle hop
  have hvalid := ((hinv.txn tid t ht hactive).execute_effect hinv.valid order).2
  exact ⟨(hinv.dequeue_succeeds_iff order ht hactive hop).mpr
    (timely_of_execution hrun tid t ht hactive), hvalid.messages.checked, hvalid.deadLetterChecked⟩

/-- **Dequeues are not rejected by constraints, when they lock no message from after their own
    start.**  In every run whose steps are all of this kind every dequeue succeeds and every row
    in the tables is valid; and in any run, a dequeue that is about to commit succeeds if and
    only if the message it has locked was enqueued no later than it began. -/
theorem dequeue_constraints (h : Execution (step order) LocksTimely .initial s) :
    s.DequeuesSucceed ∧
      ∀ s, Reachable order s → ∀ tid t queueId receiptHandle, s.txns tid = some t →
        t.phase.active → t.op = .dequeueMessage queueId receiptHandle →
        ((∃ outcome, (s.commitEvent order t).response = .dequeueMessage outcome) ↔ t.Timely s) :=
  ⟨dequeues_succeed h, fun _ hreachable _ _ _ _ ht hactive hop =>
    hreachable.inv.dequeue_succeeds_iff order ht hactive hop⟩

/-- A dequeue that starts, an enqueue that starts later and commits, and the dequeue going on. -/
def lateOrder : List Action :=
  transaction 0 (.createQueue (ordersQueue 5 fiveAttempts_inRange)) [] 0 ++
    [.start 2 (.dequeueMessage 1 11), .tick 1] ++
    transaction 1 (.enqueueMessage 1 (orderMessage 7) 60) [] 1 ++
    [.snapshot 2, .visit 2 .lease, .count 2, .lockCounter 2, .commit 2]

/-- The dequeue of `lateOrder` is rejected. -/
theorem dequeue_constraints_lateOrder : ¬∀ s, Reachable .deleteFirst s → s.DequeuesSucceed := by
  intro hall
  have hrun : (runActions .deleteFirst lateOrder).map
      (fun s => s.log.map fun e => (e.op.drawnHandle, e.response)) = some [
        (none, .createQueue .created), (none, .enqueueMessage),
        (some 11, .failed (.sql
          (.checkViolation "queue_message_delivery_not_before_enqueue")))] := by
    decide +kernel
  obtain ⟨s, hs, hlog⟩ := Option.map_eq_some_iff.mp hrun
  have hmem : (some 11, Response.failed (.sql
      (.checkViolation "queue_message_delivery_not_before_enqueue"))) ∈
        s.log.map fun e => (e.op.drawnHandle, e.response) := by
    rw [hlog]
    simp
  obtain ⟨e, he, heq⟩ := List.mem_map.mp hmem
  obtain ⟨hdrawn, hresponse⟩ := Prod.mk.inj heq
  cases hop : e.op with
  | dequeueMessage queueId receiptHandle =>
    obtain ⟨⟨outcome, hsuccess⟩, -⟩ :=
      hall s (reachable_of_runActions hs) e he queueId receiptHandle hop
    rw [hresponse] at hsuccess
    simp at hsuccess
  | _ => simp [hop, Operation.drawnHandle] at hdrawn

/-- A run in which the dequeue starts after the enqueue. -/
theorem dequeue_constraints_oneOrder : ∃ s,
    runAllowed (step .deleteFirst) LocksTimely .initial (oneOrder 5 (by decide) ++
      transaction 2 (.dequeueMessage 1 11) [.lease] 1) = some s ∧
    s.log.map (·.response.delivered) = [none, none, some 7] ∧ s.DequeuesSucceed := by
  have hrun : (runAllowed (step .deleteFirst) LocksTimely .initial (oneOrder 5 (by decide) ++
      transaction 2 (.dequeueMessage 1 11) [.lease] 1)).map
        (fun s => s.log.map (·.response.delivered)) = some [none, none, some 7] := by
    decide +kernel
  obtain ⟨s, hs, hdelivered⟩ := Option.map_eq_some_iff.mp hrun
  exact ⟨s, hs, hdelivered, (dequeue_constraints (execution_of_runAllowed hs)).1⟩

end Retsu
