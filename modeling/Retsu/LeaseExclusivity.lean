/-
  Leases exclude each other, in every interleaving.

  The timestamps of two transactions need not be in the order of their commits.  But a dequeue
  checks the newest version of a row after it has locked it, and the lease that this version
  carries never ends before an earlier one (`leases_kept`).
-/
import Retsu.SessionInvariant

namespace Retsu

open Relational Concurrency

variable {order : TriggerOrder} {s s' : System}

/-! ## Leases -/

/-- The lease that a dequeue has given on the message that it delivered. -/
structure Event.Leased (e : Event) (lease : QueueMessage) : Prop where
  delivered : e.response.delivered = some lease.id
  stored : lease ∈ e.after.queueMessage
  handle : ∃ queueId receiptHandle, e.op = .dequeueMessage queueId receiptHandle ∧
    lease.receiptHandle = some receiptHandle
  deliveredAt : lease.lastDeliveredAt = some e.now
  running : e.now < lease.availableAfter

/-- The time is in the interval from `last_delivered_at` to `available_after`. -/
def QueueMessage.LeasedAt (m : QueueMessage) (time : Int) : Prop :=
  ∃ delivered, m.lastDeliveredAt = some delivered ∧ delivered ≤ time ∧ time < m.availableAfter

/-- A delivery gives a lease on the row that the dequeue has checked. -/
theorem Effect.leased {queues : List QueueRow} {e : Event} (h : e.before.Valid)
    (heffect : Effect queues e.before e.now e.op e.response e.after) {id : Uuid}
    (hid : e.response.delivered = some id) :
    ∃ lease, e.Leased lease ∧ lease.id = id ∧ lease.state = .inFlight ∧
      ∃ m ∈ e.before.queueMessage, m.id = id ∧ (m.state = .inFlight → m.availableAfter ≤ e.now) := by
  obtain ⟨queue, receiptHandle, m, hop, -, hchecked, hm, rfl, hcandidate, -, hlease⟩ :=
    heffect.delivered h hid
  have hvisibility := (QueueRow.checked_iff.mp hchecked).2.2.1.1
  refine ⟨m.lease receiptHandle e.now queue.visibilityTimeoutSeconds,
    ⟨hid, hlease, ⟨queue.id, receiptHandle, hop, rfl⟩, rfl, ?_⟩, rfl, rfl, m, hm, rfl,
    fun hstate => ?_⟩
  · show e.now < e.now + seconds queue.visibilityTimeoutSeconds
    unfold seconds
    omega
  · simp only [isCandidate, decide_eq_true_eq, hstate, reduceCtorEq, false_or] at hcandidate
    exact hcandidate.2.2.2

/-- Only one row of the table can be the lease. -/
theorem Event.Leased.unique {e : Event} (hvalid : e.after.Valid) {lease lease' : QueueMessage}
    (h : e.Leased lease) (h' : e.Leased lease') : lease = lease' :=
  eq_of_key_eq hvalid.messages.ids h.stored h'.stored
    (Option.some.inj (h.delivered.symm.trans h'.delivered))

/-! ## The newest lease -/

/-- The live row of a message that was delivered is a lease that ends no earlier. -/
theorem leases_kept (h : Reachable order s) :
    ∀ e ∈ s.log, ∀ lease, e.Leased lease → ∀ m ∈ s.db.queueMessage, m.id = lease.id →
      m.state = .inFlight ∧ lease.availableAfter ≤ m.availableAfter := by
  refine h.invariant (I := fun s => ∀ e ∈ s.log, ∀ lease, e.Leased lease →
    ∀ m ∈ s.db.queueMessage, m.id = lease.id →
      m.state = .inFlight ∧ lease.availableAfter ≤ m.availableAfter)
    (by simp [System.initial]) fun s a s' hrun ih _ hstep => ?_
  have hinv := Reachable.inv hrun
  have hlog := Reachable.logInv hrun
  rcases (step_cases hstep).committed with ⟨hsame, -, hmessages, -⟩ | ⟨tid, t, rfl, ht, hactive, rfl⟩
  · rw [hsame, hmessages]
    exact ih
  obtain ⟨heffect, hvalid⟩ := (hinv.txn tid t ht hactive).execute_effect hinv.valid order
  refine List.forall_mem_append.mpr ⟨fun e he lease hlease m' hm' hid => ?_,
    List.forall_mem_singleton.mpr fun lease hlease m' hm' hid => ?_⟩
  · have horigin := heffect.origin hinv.valid hm'
    have hspent := (hlog.id e he lease hlease.stored).2 tid t ht hactive
    generalize t.op = op at horigin hspent
    generalize (t.execute order s.db).2 = response at horigin
    cases horigin with
    | kept hm => exact ih e he lease hlease m' hm hid
    | enqueued => exact absurd (congrArg some hid) hspent
    | @leased queue receiptHandle m _ _ hqueue hchecked hm hcandidate =>
      -- the row was free again, so the earlier lease had ended
      obtain ⟨hstate, hle⟩ := ih e he lease hlease m hm hid
      have hvisibility := (QueueRow.checked_iff.mp hchecked).2.2.1.1
      simp only [isCandidate, decide_eq_true_eq, hstate, reduceCtorEq, false_or] at hcandidate
      refine ⟨rfl, ?_⟩
      show lease.availableAfter ≤ t.now + seconds queue.visibilityTimeoutSeconds
      unfold seconds
      omega
  · obtain ⟨lease', hlease', -, hstate, -⟩ :=
      Effect.leased (e := s.commitEvent order t) hinv.valid heffect hlease.delivered
    obtain rfl := hlease.unique hvalid hlease'
    obtain rfl : m' = lease := eq_of_key_eq hvalid.messages.ids hm' hlease.stored hid
    exact ⟨hstate, le_rfl⟩

/-! ## Exclusivity -/

/-- Of two deliveries of a message, the later one has waited for the lease of the earlier one. -/
theorem leases_successive (h : Reachable order s) :
    s.log.Pairwise fun e e' => ∀ lease lease', e.Leased lease → e'.Leased lease' →
      lease.id = lease'.id → lease.availableAfter ≤ e'.now ∧
        lease.receiptHandle ≠ lease'.receiptHandle := by
  refine h.invariant (I := fun s => s.log.Pairwise fun e e' => ∀ lease lease', e.Leased lease →
    e'.Leased lease' → lease.id = lease'.id → lease.availableAfter ≤ e'.now ∧
      lease.receiptHandle ≠ lease'.receiptHandle)
    (by simp [System.initial]) fun s a s' hrun ih _ hstep => ?_
  have hinv := Reachable.inv hrun
  rcases (step_cases hstep).committed with ⟨hsame, -⟩ | ⟨tid, t, rfl, ht, hactive, rfl⟩
  · rw [hsame]
    exact ih
  obtain ⟨heffect, hvalid⟩ := (hinv.txn tid t ht hactive).execute_effect hinv.valid order
  refine List.pairwise_append.mpr ⟨ih, List.pairwise_singleton _ _, fun e he e' he' => ?_⟩
  obtain rfl := List.mem_singleton.mp he'
  intro lease lease' hlease hlease' hid
  obtain ⟨-, -, -, -, m, hm, hmid, havailable⟩ :=
    Effect.leased (e := s.commitEvent order t) hinv.valid heffect hlease'.delivered
  obtain ⟨hstate, hle⟩ := leases_kept hrun e he lease hlease m hm (hmid.trans hid.symm)
  refine ⟨hle.trans (havailable hstate), fun hhandle => ?_⟩
  -- the handle of the earlier lease is spent
  obtain ⟨queueId, r, hop, hr⟩ := hlease.handle
  obtain ⟨queueId', r', hop', hr'⟩ := hlease'.handle
  obtain rfl : r = r' := Option.some.inj (hr.symm.trans (hhandle.trans hr'))
  have hspent := (Reachable.logInv hrun).handle e he r (by rw [hop]; rfl)
  exact hspent.2 tid t ht hactive (by rw [show t.op = _ from hop']; rfl)

/-- A message that a dequeue or a cleanup deletes is not leased. -/
theorem Effect.deleted_not_leased {queues : List QueueRow} {db db' : Database} {now : Int}
    {op : Operation} {response : Response} (h : db.Valid)
    (heffect : Effect queues db now op response db') {m : QueueMessage}
    (hm : m ∈ db.queueMessage) (hgone : ∀ m' ∈ db'.queueMessage, m'.id ≠ m.id)
    (hop : ∀ queueId messageId receiptHandle,
      op ≠ .acknowledgeMessage queueId messageId receiptHandle) : ¬m.LeasedAt now := by
  rintro ⟨delivered, hdelivered, -, hrunning⟩
  cases heffect.exit h hm hgone with
  | acknowledged => exact hop _ _ _ rfl
  | deadLettered hqueue hexhausted =>
    simp only [isDeadLetterCandidate, decide_eq_true_eq] at hexhausted
    omega
  | expired hexpired =>
    simp only [isExpired, decide_eq_true_eq] at hexpired
    rcases (QueueMessage.checked_iff.mp (h.messages.checked m hm)).2.2.2.1 with
      ⟨-, -, hnone, -⟩ | ⟨hflight, -⟩
    · rw [hnone] at hdelivered
      simp at hdelivered
    · simp only [hflight, reduceCtorEq, false_or, true_and] at hexpired
      omega

/-- **Leases are exclusive.**  In every interleaving, every delivery gives a lease; of two
    deliveries of a message, the one committed later has a timestamp at which the lease of the
    earlier one has ended, and another receipt handle, so no time is in both leases.  And no
    cleanup or dead-letter move deletes a message whose newest lease is still running at the
    timestamp of the transaction that deletes it. -/
theorem lease_exclusivity (h : Reachable order s) :
    (∀ e ∈ s.log, ∀ id, e.response.delivered = some id →
      ∃ lease, e.Leased lease ∧ lease.id = id) ∧
    (s.log.Pairwise fun e e' => ∀ lease lease', e.Leased lease → e'.Leased lease' →
      lease.id = lease'.id → lease.availableAfter ≤ e'.now ∧
        lease.receiptHandle ≠ lease'.receiptHandle ∧
        ∀ time, ¬(lease.LeasedAt time ∧ lease'.LeasedAt time)) ∧
    ∀ e ∈ s.log, (∀ queueId messageId receiptHandle,
        e.op ≠ .acknowledgeMessage queueId messageId receiptHandle) →
      ∀ m ∈ e.before.queueMessage, (∀ m' ∈ e.after.queueMessage, m'.id ≠ m.id) →
        ¬m.LeasedAt e.now := by
  refine ⟨fun e he id hid => ?_, ?_, fun e he hop m hm hgone => ?_⟩
  · obtain ⟨hvalid, queues, heffect⟩ := h.logInv.effect e he
    obtain ⟨lease, hlease, hid, -⟩ := heffect.leased hvalid hid
    exact ⟨lease, hlease, hid⟩
  · refine (leases_successive h).imp fun hsuccessive lease lease' hlease hlease' hid => ?_
    obtain ⟨hended, hhandle⟩ := hsuccessive lease lease' hlease hlease' hid
    refine ⟨hended, hhandle, ?_⟩
    rintro time ⟨⟨delivered, -, -, hbefore⟩, ⟨delivered', hdelivered', hafter, -⟩⟩
    rw [hlease'.deliveredAt] at hdelivered'
    obtain rfl := Option.some.inj hdelivered'
    omega
  · obtain ⟨hvalid, queues, heffect⟩ := h.logInv.effect e he
    exact heffect.deleted_not_leased hvalid hm hgone hop

/-- Two deliveries of one message: the second dequeue starts when the first lease has ended. -/
theorem lease_exclusivity_twoLeases : ∃ s,
    runActions .deleteFirst (oneOrder 5 (by decide) ++
      transaction 2 (.dequeueMessage 1 11) [.lease] 1 ++ [.tick 1000000] ++
      transaction 3 (.dequeueMessage 1 12) [.lease] 0) = some s ∧
    s.log.map (·.response.delivered) = [none, none, some 7, some 7] ∧
    s.log.Pairwise fun e e' => ∀ lease lease', e.Leased lease → e'.Leased lease' →
      lease.id = lease'.id → lease.availableAfter ≤ e'.now ∧
        lease.receiptHandle ≠ lease'.receiptHandle ∧
        ∀ time, ¬(lease.LeasedAt time ∧ lease'.LeasedAt time) := by
  have hrun : (runActions .deleteFirst (oneOrder 5 (by decide) ++
      transaction 2 (.dequeueMessage 1 11) [.lease] 1 ++ [.tick 1000000] ++
      transaction 3 (.dequeueMessage 1 12) [.lease] 0)).map
        (fun s => s.log.map (·.response.delivered)) = some [none, none, some 7, some 7] := by
    decide +kernel
  obtain ⟨s, hs, hdelivered⟩ := Option.map_eq_some_iff.mp hrun
  exact ⟨s, hs, hdelivered, (lease_exclusivity (reachable_of_runActions hs)).2.1⟩

end Retsu
