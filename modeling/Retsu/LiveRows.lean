/-
  The rows of the message table, in every database that operations reach.

  Operations that run one after the other and transactions that run concurrently have the same
  effects, so one induction rule (`Database.Reached.invariant`) serves both.  With it: at every
  instant exactly one of four WHERE clauses selects a live message (`one_fate`), and no message
  stays beyond the reach of the cleaner (`bounded_lifetime`).
-/
import Retsu.SessionInvariant

namespace Retsu

open Relational Concurrency

/-! ## Databases that operations reach -/

/-- Operations reach the database: one after the other, at any times and with any identifiers, or
    in concurrent transactions. -/
def Database.Reached (order : TriggerOrder) (db : Database) : Prop :=
  (∃ calls, finalDatabase order .empty calls = db) ∨ ∃ s, Reachable order s ∧ s.db = db

variable {order : TriggerOrder} {db : Database}

theorem Database.Reached.valid (h : db.Reached order) : db.Valid := by
  rcases h with ⟨calls, rfl⟩ | ⟨s, hs, rfl⟩
  · exact finalDatabase_valid Database.empty_valid order calls
  · exact hs.inv.valid

/-- What the empty database has and every effect preserves, every database reached has. -/
theorem Database.Reached.invariant {I : Database → Prop} (h : db.Reached order) (hempty : I .empty)
    (hstep : ∀ queues db now op response db', db.Valid → Effect queues db now op response db' →
      I db → I db') : I db := by
  rcases h with ⟨calls, rfl⟩ | ⟨s, hs, rfl⟩
  · induction calls using List.reverseRecOn with
    | nil => exact hempty
    | append_singleton calls c ih =>
      rw [finalDatabase_append]
      have hvalid := finalDatabase_valid Database.empty_valid order calls
      exact hstep _ _ _ _ _ _ hvalid (c.op.run_effect hvalid order c.now).1 ih
  · refine Execution.invariant (I := fun s => I s.db) hs hempty fun s a s' hrun ih _ hstep' => ?_
    have hinv := Reachable.inv hrun
    cases step_cases hstep' with
    | @commit tid t ht hphase hcounters =>
      have hactive : t.phase.active := by rw [hphase]; rfl
      obtain ⟨heffect, -⟩ := (hinv.txn tid t ht hactive).execute_effect hinv.valid order
      exact hstep _ _ _ _ _ _ hinv.valid heffect ih
    | @snapshot tid t ht hphase =>
      -- a drawn value that is never used: as if an enqueue had failed
      refine hstep [] _ 0 t.op (.failed (.sql .numericValueOutOfRange)) _ hinv.valid
        (.failed ?_) ih
      split <;> omega
    | _ => exact ih

/-- What every enqueued row has and every lease preserves, every live row has. -/
theorem Database.Reached.rows {P : QueueMessage → Prop} (h : db.Reached order)
    (henqueued : ∀ (message : Message) queueId ttl order now,
      Checked queueMessageChecks (message.row queueId ttl order now) →
        P (message.row queueId ttl order now))
    (hleased : ∀ queue m receiptHandle now, Checked queueChecks queue → isCandidate queue now m →
      P m → P (m.lease receiptHandle now queue.visibilityTimeoutSeconds)) :
    ∀ m ∈ db.queueMessage, P m := by
  refine h.invariant (I := fun db => ∀ m ∈ db.queueMessage, P m) (by simp [Database.empty]) ?_
  intro queues db now op response db' hvalid heffect ih m' hm'
  by_cases hmem : m' ∈ db.queueMessage
  · exact ih m' hmem
  cases heffect with
  | failed | alreadyExists | created | notConfigured | configured | queueNotFound | unchanged
  | purged => exact absurd hm' hmem
  | acknowledged | expired => exact absurd (List.mem_filter.mp hm').1 hmem
  | enqueued hqueue hid hchecked hseq =>
    rcases List.mem_append.mp hm' with hm' | hm'
    · exact absurd hm' hmem
    · rw [List.mem_singleton.mp hm']
      exact henqueued _ _ _ _ _ hchecked
  | @dequeued _ _ queue _ _ candidate _ _ _ hqueue hchecked hid hnodup hexhausted hcandidate =>
    obtain ⟨m, hm, -, rfl⟩ := mem_dequeuedMessages.mp hm'
    split
    · rename_i hc
      have hcand := of_key_eq_some hvalid.messages.ids hcandidate hm hc
      exact hleased _ _ _ _ hchecked hcand.1 (ih m hm)
    · exact ih m hm

/-! ## Fates -/

/-- What the statements of the repository can do with a live message. -/
inductive Fate
  | deliverable
  | acknowledgeable
  | exhausted
  | expired
deriving DecidableEq

/-- The four WHERE clauses: of `candidate` and of `dead_letter_candidates` in a dequeue on the
    queue, of an acknowledge with the current receipt handle, and of `expired`. -/
def QueueMessage.hasFate (queue : QueueRow) (now : Int) (m : QueueMessage) : Fate → Bool
  | .deliverable => isCandidate queue now m
  | .acknowledgeable => m.receiptHandle.any fun receiptHandle =>
      isAcknowledgeable m.queueId m.id receiptHandle now m
  | .exhausted => isDeadLetterCandidate queue now m
  | .expired => isExpired now m

/-- The fate, decided in the order in which the clauses exclude each other. -/
def QueueMessage.fate (queue : QueueRow) (now : Int) (m : QueueMessage) : Fate :=
  if m.state = .inFlight ∧ now < m.availableAfter then .acknowledgeable
  else if m.expiresAt ≤ now then .expired
  else if queue.maxDeliveryAttempts ≤ m.deliveryAttempts then .exhausted
  else .deliverable

/-- The fates that an operation brings about. -/
def Operation.takes : Operation → Fate → Bool
  | dequeueMessage _ _, .deliverable | dequeueMessage _ _, .exhausted => true
  | acknowledgeMessage _ _ _, .acknowledgeable => true
  | processExpiredMessages _, .expired => true
  | _, _ => false

/-- On a valid row of a valid queue the clauses say which fate it is. -/
theorem QueueMessage.hasFate_iff {queue : QueueRow} {m : QueueMessage} (now : Int)
    (hqueue : Checked queueChecks queue) (hid : queue.id = m.queueId)
    (hchecked : Checked queueMessageChecks m) (fate : Fate) :
    m.hasFate queue now fate ↔ m.fate queue now = fate := by
  obtain ⟨-, -, -, ⟨hmax, -⟩, -⟩ := QueueRow.checked_iff.mp hqueue
  rcases m.state_cases hchecked with ⟨hstate, hhandle, hattempts⟩ | ⟨hstate, receiptHandle, hhandle⟩
  · -- a message that was never delivered waits until it expires
    have hlimit : 0 < queue.maxDeliveryAttempts := by omega
    by_cases hexpired : m.expiresAt ≤ now
    · have hfate : m.fate queue now = .expired := by simp [QueueMessage.fate, hstate, hexpired]
      rw [hfate]
      cases fate <;> simp [QueueMessage.hasFate, isCandidate, isDeadLetterCandidate, isExpired,
        hstate, hhandle, hexpired, not_lt.mpr hexpired]
    · have hfate : m.fate queue now = .deliverable := by
        simp [QueueMessage.fate, hstate, hexpired, hattempts, hlimit]
      rw [hfate]
      cases fate <;> simp [QueueMessage.hasFate, isCandidate, isDeadLetterCandidate, isExpired,
        hstate, hhandle, hid, hattempts, hlimit, not_le.mp hexpired]
  · -- a delivered message is leased until its lease elapses
    simp only [QueueMessage.fate, hstate, true_and]
    cases fate with
    | deliverable =>
      simp only [QueueMessage.hasFate, isCandidate, hstate, hid, decide_eq_true_eq, true_and,
        reduceCtorEq, false_or]
      split_ifs <;> simp <;> omega
    | acknowledgeable =>
      simp only [QueueMessage.hasFate, isAcknowledgeable, hhandle, Option.any_some,
        decide_eq_true_eq, true_and]
      split_ifs <;> simp <;> omega
    | exhausted =>
      simp only [QueueMessage.hasFate, isDeadLetterCandidate, hstate, hid, decide_eq_true_eq,
        true_and]
      split_ifs <;> simp <;> omega
    | expired =>
      simp only [QueueMessage.hasFate, isExpired, hstate, decide_eq_true_eq, true_and,
        reduceCtorEq, false_or]
      split_ifs <;> simp <;> omega

/-- A live message that an operation removes or changes has a fate that the operation takes. -/
theorem Effect.takes {queues : List QueueRow} {db' : Database} {now : Int} {op : Operation}
    {response : Response} (h : db.Valid) (heffect : Effect queues db now op response db')
    {m : QueueMessage} (hm : m ∈ db.queueMessage) (hchanged : m ∉ db'.queueMessage)
    {queue : QueueRow} (hqueue : ∀ q ∈ queues, q.id = m.queueId → q = queue) :
    ∃ fate, m.hasFate queue now fate ∧ op.takes fate := by
  by_cases hgone : ∀ m' ∈ db'.queueMessage, m'.id ≠ m.id
  · cases heffect.exit h hm hgone with
    | @acknowledged queueId messageId receiptHandle m hack =>
      refine ⟨.acknowledgeable, ?_, rfl⟩
      simp only [isAcknowledgeable, decide_eq_true_eq] at hack
      obtain ⟨-, -, hhandle, hrunning⟩ := hack
      simp [QueueMessage.hasFate, isAcknowledgeable, hhandle, hrunning]
    | @deadLettered queue' receiptHandle m d outcome hmem hexhausted hd hstored =>
      refine ⟨.exhausted, ?_, rfl⟩
      have hid := hexhausted
      simp only [isDeadLetterCandidate, decide_eq_true_eq] at hid
      obtain rfl := hqueue queue' hmem hid.1
      exact hexhausted
    | expired hexpired => exact ⟨.expired, hexpired, rfl⟩
  · push Not at hgone
    obtain ⟨m', hm', hid⟩ := hgone
    cases heffect.origin h hm' with
    | kept hmem => exact absurd (eq_of_key_eq h.messages.ids hmem hm hid ▸ hm') hchanged
    | enqueued hnew => exact absurd hid.symm (hnew m hm)
    | @leased queue' receiptHandle r _ _ hmem hchecked hr hcandidate =>
      obtain rfl := eq_of_key_eq h.messages.ids hr hm hid
      refine ⟨.deliverable, ?_, rfl⟩
      have hid' := hcandidate
      simp only [isCandidate, decide_eq_true_eq] at hid'
      obtain rfl := hqueue queue' hmem hid'.1
      exact hcandidate

/-- A live message belongs to a queue. -/
theorem Database.Valid.queue_of (h : db.Valid) {m : QueueMessage} (hm : m ∈ db.queueMessage) :
    ∃ queue ∈ db.queue, targetQueue db m.queueId = some queue ∧ queue.id = m.queueId ∧
      Checked queueChecks queue := by
  obtain ⟨queue, hqueue, hid⟩ := h.messages.queue m hm
  exact ⟨queue, hqueue, h.find_queue.mpr ⟨hqueue, hid⟩, hid, h.queueChecked queue hqueue⟩

/-- **Every live message has exactly one fate.**  In every database that operations reach, at
    every time, exactly one of the four WHERE clauses holds of a message and its queue, and an
    operation that removes or changes the message is one that takes this fate.  No dequeue on any
    queue selects a row both to archive and to lease; and no transaction has locked a row for
    both, whatever runs beside it. -/
theorem one_fate (order : TriggerOrder) :
    (∀ db : Database, db.Reached order → ∀ now, ∀ m ∈ db.queueMessage,
      ∃ queue, targetQueue db m.queueId = some queue ∧
        (∃! fate, m.hasFate queue now fate) ∧
        ∀ op : Operation, m ∉ (op.run order db now).1.queueMessage →
          ∃ fate, m.hasFate queue now fate ∧ op.takes fate) ∧
    (∀ db : Database, db.Reached order → ∀ now, ∀ queue ∈ db.queue,
      ∀ m ∈ deadLetterCandidates db queue now, m ∉ deliveryCandidates db queue now) ∧
    ∀ s, Reachable order s → ∀ tid t, s.txns tid = some t → t.phase.active →
      ∀ id ∈ (t.scan .delete).picked, id ∉ (t.scan .lease).picked := by
  refine ⟨fun db hdb now m hm => ?_, fun db hdb now queue hqueue m hm hmem => ?_,
    fun s hs tid t ht hactive id hdelete hlease => ?_⟩
  · have hvalid := hdb.valid
    obtain ⟨queue, hqueue, htarget, hid, hchecked⟩ := hvalid.queue_of hm
    refine ⟨queue, htarget, ⟨m.fate queue now, ?_, ?_⟩, fun op hchanged => ?_⟩
    · exact (m.hasFate_iff now hchecked hid (hvalid.messages.checked m hm) _).mpr rfl
    · intro fate hfate
      exact ((m.hasFate_iff now hchecked hid (hvalid.messages.checked m hm) fate).mp hfate).symm
    · exact (op.run_effect hvalid order now).1.takes hvalid hm hchanged fun q hq hqid =>
        eq_of_key_eq hvalid.queueIds hq hqueue (hqid.trans hid.symm)
  · rw [deadLetterCandidates, mem_orderBy, List.mem_filter] at hm
    rw [deliveryCandidates, mem_orderBy, List.mem_filter] at hmem
    exact not_isDeadLetterCandidate hmem.2 hm.2
  · exact (hs.inv.txn tid t ht hactive).picks_disjoint hs.inv.valid hdelete hlease

/-- A queue, a message, a delivery and an update that lowers the limit to that one delivery. -/
def loweredOrder : List Call := [
  ⟨0, .createQueue (ordersQueue 5 fiveAttempts_inRange)⟩,
  ⟨0, .enqueueMessage 1 (orderMessage 7) 60⟩,
  ⟨0, .dequeueMessage 1 11⟩,
  ⟨1, .updateQueue 1 oneAttemptUpdate⟩]

/-- The delivered message can be acknowledged, then archived, and in the end it has expired. -/
theorem one_fate_loweredOrder : ∃ db : Database, db.Reached .deleteFirst ∧
    (db.queueMessage.map fun m => (m.id, [0, 1000000, 60000000].map fun now =>
      (targetQueue db m.queueId).map fun queue => m.fate queue now)) =
        [(7, [some .acknowledgeable, some .exhausted, some .expired])] ∧
    ∀ now, ∀ m ∈ db.queueMessage, ∃ queue, targetQueue db m.queueId = some queue ∧
      (∃! fate, m.hasFate queue now fate) ∧
      ∀ op : Operation, m ∉ (op.run .deleteFirst db now).1.queueMessage →
        ∃ fate, m.hasFate queue now fate ∧ op.takes fate :=
  ⟨finalDatabase .deleteFirst .empty loweredOrder, Or.inl ⟨loweredOrder, rfl⟩, by decide +kernel,
    (one_fate .deleteFirst).1 _ (Or.inl ⟨loweredOrder, rfl⟩)⟩

/-! ## Lifetimes -/

/-- The longest time between a message's expiration and the end of its last lease. -/
def maxLease : Int := seconds maxVisibilityTimeoutSeconds.toNat

/-- What bounds the time that a row spends in the message table. -/
structure QueueMessage.Bounded (m : QueueMessage) : Prop where
  expires : m.expiresAt ≤ m.enqueuedAt + days 30
  delivered : ∀ delivered ∈ m.lastDeliveredAt, delivered < m.expiresAt
  available : m.availableAfter < m.expiresAt + maxLease

/-- A message that expires keeps its row, until an operation removes it. -/
theorem Effect.expired_kept {queues : List QueueRow} {db' : Database} {now : Int} {op : Operation}
    {response : Response} (h : db.Valid) (heffect : Effect queues db now op response db')
    {m m' : QueueMessage} (hm : m ∈ db.queueMessage) (hexpired : m.expiresAt ≤ now)
    (hm' : m' ∈ db'.queueMessage) (hid : m'.id = m.id) : m' = m := by
  cases heffect.origin h hm' with
  | kept hmem => exact eq_of_key_eq h.messages.ids hmem hm hid
  | enqueued hnew => exact absurd hid.symm (hnew m hm)
  | @leased queue receiptHandle r _ _ hqueue hchecked hr hcandidate =>
    obtain rfl := eq_of_key_eq h.messages.ids hr hm hid
    simp only [isCandidate, decide_eq_true_eq] at hcandidate
    omega

/-- Every live row is bounded, whatever the order and the times of the operations. -/
theorem Database.Reached.bounded (h : db.Reached order) : ∀ m ∈ db.queueMessage, m.Bounded := by
  refine h.rows (fun message queueId ttl order now hchecked => ?_)
    fun queue m receiptHandle now hqueue hcandidate hm => ?_
  · obtain ⟨-, -, ⟨hafter, hexpires⟩, -⟩ := QueueMessage.checked_iff.mp hchecked
    refine ⟨hexpires, by simp [Message.row], ?_⟩
    have hlease : 0 < maxLease := by decide
    show now < (message.row queueId ttl order now).expiresAt + maxLease
    have : (message.row queueId ttl order now).enqueuedAt = now := rfl
    omega
  · -- the lease begins before the message expires
    obtain ⟨-, -, ⟨-, hvisibility⟩, -⟩ := QueueRow.checked_iff.mp hqueue
    simp only [isCandidate, decide_eq_true_eq] at hcandidate
    obtain ⟨-, hlive, -⟩ := hcandidate
    refine ⟨hm.expires, fun delivered hdelivered => ?_, ?_⟩
    · obtain rfl := Option.mem_some_iff.mp hdelivered
      exact hlive
    · have hmax : maxLease = 21600 * 1000000 := rfl
      show now + seconds queue.visibilityTimeoutSeconds < m.expiresAt + maxLease
      unfold seconds
      omega

/-- **The lifetime of a live row is bounded.**  In every database that operations reach, in any
    order and at any times, every row expires within 30 days of its enqueue, was last delivered
    before it expired, and has a lease that ends less than six hours after.  So at or after the
    expiration no operation changes the row without removing it, in a run of its own or beside
    others; and from 30 days and six hours after the enqueue on the cleaner selects it. -/
theorem bounded_lifetime (order : TriggerOrder) :
    (∀ db : Database, db.Reached order → ∀ m ∈ db.queueMessage,
      m.expiresAt ≤ m.enqueuedAt + days 30 ∧
      (∀ delivered ∈ m.lastDeliveredAt, delivered < m.expiresAt) ∧
      m.availableAfter < m.expiresAt + seconds 21600 ∧
      (∀ now, m.expiresAt ≤ now → (∀ queue, ¬isCandidate queue now m) ∧
        ∀ op : Operation, ∀ m' ∈ (op.run order db now).1.queueMessage, m'.id = m.id → m' = m) ∧
      ∀ now, m.enqueuedAt + days 30 + seconds 21600 ≤ now → isExpired now m) ∧
    ∀ s, Reachable order s → ∀ tid t, s.txns tid = some t → t.phase.active →
      ∀ m ∈ s.db.queueMessage, m.expiresAt ≤ t.now →
        ∀ m' ∈ (t.execute order s.db).1.queueMessage, m'.id = m.id → m' = m := by
  refine ⟨fun db hdb m hm => ?_, fun s hs tid t ht hactive m hm hexpired m' hm' hid => ?_⟩
  · have hvalid := hdb.valid
    have hbounded := hdb.bounded m hm
    have havailable : m.availableAfter < m.expiresAt + seconds 21600 := hbounded.available
    refine ⟨hbounded.expires, hbounded.delivered, havailable, fun now hexpired =>
      ⟨fun queue hcandidate => ?_, fun op m' hm' hid => ?_⟩, fun now hlate => ?_⟩
    · simp only [isCandidate, decide_eq_true_eq] at hcandidate
      omega
    · exact (op.run_effect hvalid order now).1.expired_kept hvalid hm hexpired hm' hid
    · have hexpires := hbounded.expires
      have hlease : 0 < seconds 21600 := by decide
      simp only [isExpired, decide_eq_true_eq]
      refine ⟨by omega, ?_⟩
      rcases m.state_cases (hvalid.messages.checked m hm) with ⟨hready, -⟩ | ⟨hflight, -⟩
      · exact Or.inl hready
      · exact Or.inr ⟨hflight, by omega⟩
  · have heffect := ((hs.inv.txn tid t ht hactive).execute_effect hs.inv.valid order).1
    exact heffect.expired_kept hs.inv.valid hm hexpired hm' hid

/-- From 30 days and six hours on the cleaner selects the delivered message. -/
theorem bounded_lifetime_loweredOrder :
    ∃ db : Database, db.Reached .deleteFirst ∧ db.queueMessage.map (·.id) = [7] ∧
      ∀ m ∈ db.queueMessage, ∀ now, m.enqueuedAt + days 30 + seconds 21600 ≤ now →
        isExpired now m :=
  ⟨finalDatabase .deleteFirst .empty loweredOrder, Or.inl ⟨loweredOrder, rfl⟩, by decide +kernel,
    fun m hm => ((bounded_lifetime .deleteFirst).1 _ (Or.inl ⟨loweredOrder, rfl⟩) m hm).2.2.2.2⟩

end Retsu
