/-
  What the operations report agrees with what they removed.

  `dequeue_message` reports how many messages it archived, the cleaners report per queue how
  many rows they deleted; both counts come from aggregate queries over joins, and both are
  compared here with the difference of the tables before and after.
-/
import Retsu.Lineage

namespace Retsu

open Relational

variable {queues : List QueueRow} {db db' : Database} {now : Int}

/-- The messages of `db` that `db'` no longer has. -/
def removedMessages (db db' : Database) : List QueueMessage :=
  removedRows (·.id) db.queueMessage db'.queueMessage

/-- The archived messages of `db` that `db'` no longer has. -/
def removedDeadLetters (db db' : Database) : List QueueDeadLetterMessage :=
  removedRows (·.id) db.queueDeadLetterMessage db'.queueDeadLetterMessage

/-! ## Dequeue -/

/-- The count of archived messages in a result. -/
def DequeueMessageOutcome.deadLettered : DequeueMessageOutcome → Nat
  | dequeued _ _ _ _ _ _ deadLettered => deadLettered
  | empty _ deadLettered => deadLettered
  | queueNotFound => 0

/-- A dequeue reports the messages it removed, and archives as many. -/
theorem Effect.dequeue_report (h : db.Valid) {queueId receiptHandle : Uuid}
    {outcome : DequeueMessageOutcome}
    (heffect : Effect queues db now (.dequeueMessage queueId receiptHandle)
      (.dequeueMessage outcome) db') :
    outcome.deadLettered = (removedMessages db db').length ∧
      db'.queueDeadLetterMessage.length =
        db.queueDeadLetterMessage.length + outcome.deadLettered := by
  cases heffect with
  | queueNotFound =>
    rw [removedMessages, removedRows_self]
    exact ⟨rfl, rfl⟩
  | @dequeued _ _ queue exhausted deleted candidate stored _ shards hqueue hchecked hid hnodup
      hexhausted hcandidate hdeleted hstored houtcome =>
    have hcount : outcome.deadLettered = exhausted.length := by cases houtcome <;> rfl
    have hlength : stored.length = exhausted.length :=
      hstored.length_eq.symm.trans hdeleted.length_eq
    refine ⟨?_, by rw [hcount, ← hlength]; exact List.length_append⟩
    rw [hcount, removedMessages, removedRows_eq (exhausted.map (·.id))]
    · exact (filter_mem_keys_perm h.messages.ids (fun m hm => (hexhausted m hm).1)
        hnodup).length_eq.symm
    · exact fun m hm hmem => ⟨_, mem_dequeuedMessages.mpr ⟨m, hm, hmem, rfl⟩, by split <;> rfl⟩
    · intro m' hm'
      obtain ⟨m, -, hmem, rfl⟩ := mem_dequeuedMessages.mp hm'
      split <;> exact hmem

/-! ## Cleaners -/

section Cleaners

variable {α : Type} {queueId : α → Uuid} {deleted : List α}

/-- The join gives every deleted row one queue name. -/
theorem countP_joinQueueName (hids : (queues.map (·.id)).Nodup)
    (hqueue : ∀ m ∈ deleted, ∃ q ∈ queues, q.id = queueId m) (p : α → Bool) :
    (joinQueueName queues queueId deleted).countP (fun e => p e.2) = deleted.countP p := by
  induction deleted with
  | nil => rfl
  | cons m deleted ih =>
    obtain ⟨q, hq, hid⟩ := hqueue m List.mem_cons_self
    have hrest := ih fun m' hm' => hqueue m' (List.mem_cons_of_mem m hm')
    rw [joinQueueName] at hrest ⊢
    rw [List.flatMap_cons, List.countP_append, hrest, ← hid, filter_key_eq hids hq,
      List.countP_cons]
    simp [List.countP_cons, Nat.add_comm]

/-- A name in the join stands for one queue. -/
theorem countP_joinQueueName_of_name (hids : (queues.map (·.id)).Nodup)
    (hnames : (queues.map (·.name)).Nodup)
    (hqueue : ∀ m ∈ deleted, ∃ q ∈ queues, q.id = queueId m) {q : QueueRow} (hq : q ∈ queues)
    (p : α → Bool) :
    ((joinQueueName queues queueId deleted).filter fun e => e.1 = q.name).countP
        (fun e => p e.2) =
      deleted.countP fun m => queueId m = q.id ∧ p m := by
  induction deleted with
  | nil => rfl
  | cons m deleted ih =>
    obtain ⟨r, hr, hid⟩ := hqueue m List.mem_cons_self
    have hrest := ih fun m' hm' => hqueue m' (List.mem_cons_of_mem m hm')
    -- the queue of `m` has the name exactly when it is the queue
    have hiff : r.name = q.name ↔ queueId m = q.id := by
      rw [← hid]
      exact ⟨fun hn => congrArg _ (eq_of_key_eq hnames hr hq hn),
        fun hi => congrArg _ (eq_of_key_eq hids hr hq hi)⟩
    rw [joinQueueName] at hrest ⊢
    rw [List.flatMap_cons, List.filter_append, List.countP_append, hrest, ← hid,
      filter_key_eq hids hr, List.countP_cons]
    by_cases hname : r.name = q.name
    · simp [hname, hiff.mp hname, List.countP_cons, Nat.add_comm]
    · simp [hname, mt hiff.mpr hname]

/-- The name of an entry of the join is the name of a queue. -/
theorem queue_of_mem_joinQueueName {e : String × α} (he : e ∈ joinQueueName queues queueId deleted) :
    ∃ q ∈ queues, q.name = e.1 := by
  obtain ⟨m, -, he⟩ := List.mem_flatMap.mp he
  obtain ⟨q, hq, rfl⟩ := List.mem_map.mp he
  exact ⟨q, (List.mem_filter.mp hq).1, rfl⟩

/-- The groups of the join are the queues of the deleted rows. -/
theorem mem_groupKeys_joinQueueName {name : String} :
    name ∈ groupKeys Prod.fst (joinQueueName queues queueId deleted) ↔
      ∃ q ∈ queues, q.name = name ∧ ∃ m ∈ deleted, queueId m = q.id := by
  rw [mem_groupKeys]
  constructor
  · rintro ⟨e, he, rfl⟩
    obtain ⟨m, hm, he⟩ := List.mem_flatMap.mp he
    obtain ⟨q, hq, rfl⟩ := List.mem_map.mp he
    obtain ⟨hq, hid⟩ := List.mem_filter.mp hq
    exact ⟨q, hq, rfl, m, hm, (of_decide_eq_true hid).symm⟩
  · rintro ⟨q, hq, rfl, m, hm, hid⟩
    refine ⟨(q.name, m), List.mem_flatMap.mpr ⟨m, hm, List.mem_map.mpr ⟨q, ?_, rfl⟩⟩, rfl⟩
    exact List.mem_filter.mpr ⟨hq, decide_eq_true hid.symm⟩

end Cleaners

section Expired

variable {deleted : List QueueMessage}

/-- What the cleanup reports of the rows it has deleted. -/
def expiredSummary (queues : List QueueRow) (deleted : List QueueMessage) :
    ExpiredMessagesCleanupSummary :=
  ⟨(processExpiredMessagesRows queues deleted).map fun row =>
    ⟨row.1, row.2.1.toNat, row.2.2.toNat⟩⟩

theorem expiredSummary_names :
    (expiredSummary queues deleted).perQueue.map (·.queueName) =
      groupKeys Prod.fst (joinQueueName queues (·.queueId) deleted) := by
  simp [expiredSummary, processExpiredMessagesRows, aggregate, Function.comp_def]

theorem expiredSummary_neverDelivered (hids : (queues.map (·.id)).Nodup)
    (hqueue : ∀ m ∈ deleted, ∃ q ∈ queues, q.id = m.queueId) :
    (expiredSummary queues deleted).neverDelivered =
      deleted.countP fun m => m.deliveryAttempts = 0 := by
  rw [← countP_joinQueueName hids hqueue fun m => m.deliveryAttempts = 0,
    ← sum_aggregate_countP Prod.fst]
  simp [expiredSummary, ExpiredMessagesCleanupSummary.neverDelivered, processExpiredMessagesRows,
    aggregate, Function.comp_def]

theorem expiredSummary_previouslyDelivered (hids : (queues.map (·.id)).Nodup)
    (hqueue : ∀ m ∈ deleted, ∃ q ∈ queues, q.id = m.queueId) :
    (expiredSummary queues deleted).previouslyDelivered =
      deleted.countP fun m => 0 < m.deliveryAttempts := by
  rw [← countP_joinQueueName hids hqueue fun m => 0 < m.deliveryAttempts,
    ← sum_aggregate_countP Prod.fst]
  simp [expiredSummary, ExpiredMessagesCleanupSummary.previouslyDelivered,
    processExpiredMessagesRows, aggregate, Function.comp_def]

/-- The two totals make up the number that the worker looks at. -/
theorem ExpiredMessagesCleanupSummary.processed_eq (summary : ExpiredMessagesCleanupSummary) :
    summary.processed = summary.neverDelivered + summary.previouslyDelivered :=
  List.sum_map_add

/-- An attempt count is zero or positive, so every deleted row is in one of the two totals. -/
theorem expiredSummary_processed (hids : (queues.map (·.id)).Nodup)
    (hqueue : ∀ m ∈ deleted, ∃ q ∈ queues, q.id = m.queueId)
    (hattempts : ∀ m ∈ deleted, 0 ≤ m.deliveryAttempts) :
    (expiredSummary queues deleted).processed = deleted.length := by
  rw [ExpiredMessagesCleanupSummary.processed_eq, expiredSummary_neverDelivered hids hqueue,
    expiredSummary_previouslyDelivered hids hqueue,
    List.length_eq_countP_add_countP (fun m : QueueMessage => decide (m.deliveryAttempts = 0))]
  congr 1
  refine List.countP_congr fun m hm => ?_
  have := hattempts m hm
  simp only [decide_eq_true_eq]
  omega

end Expired

section Purged

variable {deleted : List QueueDeadLetterMessage}

/-- What the purge reports of the rows it has deleted. -/
def purgedSummary (queues : List QueueRow) (deleted : List QueueDeadLetterMessage) :
    DeadLetterMessagesPurgeSummary :=
  ⟨(purgeDeadLetterMessagesRows queues deleted).map fun row => ⟨row.1, row.2.toNat⟩⟩

theorem purgedSummary_names :
    (purgedSummary queues deleted).perQueue.map (·.queueName) =
      groupKeys Prod.fst (joinQueueName queues (·.queueId) deleted) := by
  simp [purgedSummary, purgeDeadLetterMessagesRows, aggregate, Function.comp_def]

theorem purgedSummary_purged (hids : (queues.map (·.id)).Nodup)
    (hqueue : ∀ d ∈ deleted, ∃ q ∈ queues, q.id = d.queueId) :
    (purgedSummary queues deleted).purged = deleted.length := by
  rw [← List.countP_true, ← countP_joinQueueName hids hqueue fun _ => true,
    ← sum_aggregate_countP Prod.fst]
  simp [purgedSummary, DeadLetterMessagesPurgeSummary.purged, purgeDeadLetterMessagesRows,
    aggregate, Function.comp_def]

end Purged

/-- The expired cleanup reports the messages it removed, queue by queue. -/
theorem Effect.expired_report (h : db.Valid) {batchSize : UInt32}
    {summary : ExpiredMessagesCleanupSummary}
    (heffect : Effect queues db now (.processExpiredMessages batchSize)
      (.processExpiredMessages summary) db') :
    summary.processed = (removedMessages db db').length ∧
      ∀ s ∈ summary.perQueue, ∃ q ∈ db.queue, s.queueName = q.name ∧
        s.neverDelivered = (removedMessages db db').countP
          (fun m => m.queueId = q.id ∧ m.deliveryAttempts = 0) ∧
        s.previouslyDelivered = (removedMessages db db').countP
          (fun m => m.queueId = q.id ∧ 0 < m.deliveryAttempts) := by
  cases heffect with
  | @expired _ expired _ shards hexpired hsummary =>
    rw [removedMessages, removedRows_filter]
    generalize hdeleted : db.queueMessage.filter (fun m => m.id ∈ expired.map (·.id)) = deleted
      at hsummary
    have hmem : ∀ m ∈ deleted, m ∈ db.queueMessage := fun m hm =>
      (List.mem_filter.mp (hdeleted ▸ hm)).1
    have hqueue : ∀ m ∈ deleted, ∃ q ∈ db.queue, q.id = m.queueId := fun m hm =>
      h.messages.queue m (hmem m hm)
    have hattempts : ∀ m ∈ deleted, 0 ≤ m.deliveryAttempts := fun m hm =>
      (QueueMessage.checked_iff.mp (h.messages.checked m (hmem m hm))).2.1
    rw [decodeExpired_rows] at hsummary
    injection hsummary with hsummary
    subst hsummary
    constructor
    · exact expiredSummary_processed h.queueIds hqueue hattempts
    · intro s hs
      obtain ⟨e, he, rfl⟩ := List.mem_map.mp hs
      obtain ⟨⟨a, ha, hname⟩, hv⟩ := mem_aggregate.mp he
      obtain ⟨q, hq, hqname⟩ := queue_of_mem_joinQueueName ha
      have hcount := countP_joinQueueName_of_name h.queueIds h.queueNames hqueue hq
      refine ⟨q, hq, by rw [hqname, hname], ?_, ?_⟩
      · simpa [hv, ← hname, ← hqname] using hcount fun m => m.deliveryAttempts = 0
      · simpa [hv, ← hname, ← hqname] using hcount fun m => 0 < m.deliveryAttempts

/-- The purge reports the archived messages it removed, queue by queue. -/
theorem Effect.purge_report (h : db.Valid) {retentionSeconds : Int} {batchSize : UInt32}
    {summary : DeadLetterMessagesPurgeSummary}
    (heffect : Effect queues db now (.purgeDeadLetterMessages retentionSeconds batchSize)
      (.purgeDeadLetterMessages summary) db') :
    summary.purged = (removedDeadLetters db db').length ∧
      ∀ s ∈ summary.perQueue, ∃ q ∈ db.queue, s.queueName = q.name ∧
        s.purged = (removedDeadLetters db db').countP (fun d => d.queueId = q.id) := by
  cases heffect with
  | @purged _ _ purged _ hpurged hsummary =>
    rw [removedDeadLetters, removedRows_filter]
    generalize hdeleted : db.queueDeadLetterMessage.filter (fun d => d.id ∈ purged.map (·.id)) =
      deleted at hsummary
    have hqueue : ∀ d ∈ deleted, ∃ q ∈ db.queue, q.id = d.queueId := fun d hd =>
      h.deadLetterQueue d (List.mem_filter.mp (hdeleted ▸ hd)).1
    rw [decodePurged_rows] at hsummary
    injection hsummary with hsummary
    subst hsummary
    constructor
    · exact purgedSummary_purged h.queueIds hqueue
    · intro s hs
      obtain ⟨e, he, rfl⟩ := List.mem_map.mp hs
      obtain ⟨⟨a, ha, hname⟩, hv⟩ := mem_aggregate.mp he
      obtain ⟨q, hq, hqname⟩ := queue_of_mem_joinQueueName ha
      refine ⟨q, hq, by rw [hqname, hname], ?_⟩
      simpa [hv, ← hname, ← hqname] using
        countP_joinQueueName_of_name h.queueIds h.queueNames hqueue hq fun _ => true

end Retsu
