/-
  The integrity of the tables, and what single statements do to it.

  `Database.Valid` says that keys are unique, that rows satisfy their constraints and that the
  rollup counts the message table.  The lemmas below it say which rows the deleting statements
  and the dequeue statement leave behind, and that exhausted messages fit the dead-letter table.
-/
import Retsu.Repository
import Retsu.RollupInvariant

namespace Retsu

open Relational

/-! ## Valid databases -/

structure Database.Valid (db : Database) : Prop extends db.RollupValid where
  queueIds : (db.queue.map (·.id)).Nodup
  queueNames : (db.queue.map (·.name)).Nodup
  queueChecked : ∀ q ∈ db.queue, Checked queueChecks q
  drawn : ∀ m ∈ db.queueMessage, m.enqueueOrder < db.enqueueOrderSequence
  attempts : ∀ m ∈ db.queueMessage, m.deliveryAttempts ≤ 100
  payloads : ∀ m ∈ db.queueMessage, ∃ text : String, m.payload = text.toByteArray
  deadLetterIds : (db.queueDeadLetterMessage.map (·.id)).Nodup
  deadLetterChecked : ∀ d ∈ db.queueDeadLetterMessage, Checked queueDeadLetterMessageChecks d
  deadLetterQueue : ∀ d ∈ db.queueDeadLetterMessage, ∃ q ∈ db.queue, q.id = d.queueId

/-- The database after a statement on the message table. -/
abbrev Database.withMessages (db : Database) (messages : List QueueMessage)
    (shards : List QueuePriorityStateShard) : Database :=
  { db with queueMessage := messages, queuePriorityStateShard := shards }

theorem Database.empty_valid : Database.empty.Valid where
  messages := ⟨by simp [Database.empty], by simp [Database.empty], by simp [Database.empty],
    by simp [Database.empty]⟩
  rollup := ⟨by simp [Database.empty], by simp [Database.empty], fun key => rfl⟩
  queueIds := by simp [Database.empty]
  queueNames := by simp [Database.empty]
  queueChecked := by simp [Database.empty]
  drawn := by simp [Database.empty]
  attempts := by simp [Database.empty]
  payloads := by simp [Database.empty]
  deadLetterIds := by simp [Database.empty]
  deadLetterChecked := by simp [Database.empty]
  deadLetterQueue := by simp [Database.empty]

namespace Database.Valid

variable {db : Database} (h : db.Valid)

include h

/-- The sequence may run ahead of the table. -/
theorem draw {seq : Int} (hseq : db.enqueueOrderSequence ≤ seq) :
    ({ db with enqueueOrderSequence := seq } : Database).Valid :=
  { h with
    messages := h.messages
    rollup := h.rollup
    drawn := fun m hm => lt_of_lt_of_le (h.drawn m hm) hseq }

/-- A statement on the message table keeps the rest. -/
theorem exec {db' : Database} {s : Statement} (hexec : s.exec db = .ok db')
    (hrows : ∀ m ∈ s.apply db.queueMessage, m.enqueueOrder < db.enqueueOrderSequence ∧
      m.deliveryAttempts ≤ 100 ∧ ∃ text : String, m.payload = text.toByteArray) : db'.Valid := by
  obtain ⟨hvalid, -, shards, rfl⟩ := Statement.exec_valid h.toRollupValid hexec
  exact { h with
    messages := hvalid.messages
    rollup := hvalid.rollup
    drawn := fun m hm => (hrows m hm).1
    attempts := fun m hm => (hrows m hm).2.1
    payloads := fun m hm => (hrows m hm).2.2 }

theorem find_queue {queueId : Uuid} {queue : QueueRow} :
    targetQueue db queueId = some queue ↔ queue ∈ db.queue ∧ queue.id = queueId :=
  find?_key_eq_some h.queueIds

/-- The queue table may change if it keeps its identifiers. -/
theorem withQueue {queues : List QueueRow} (hids : (queues.map (·.id)).Nodup)
    (hnames : (queues.map (·.name)).Nodup) (hchecked : ∀ q ∈ queues, Checked queueChecks q)
    (hkeep : ∀ q ∈ db.queue, ∃ q' ∈ queues, q'.id = q.id) :
    ({ db with queue := queues } : Database).Valid := by
  have hexists : ∀ {queueId : Uuid}, (∃ q ∈ db.queue, q.id = queueId) →
      ∃ q ∈ queues, q.id = queueId := by
    rintro queueId ⟨q, hq, rfl⟩
    exact hkeep q hq
  exact { h with
    messages := { h.messages with queue := fun m hm => hexists (h.messages.queue m hm) }
    rollup := h.rollup
    queueIds := hids
    queueNames := hnames
    queueChecked := hchecked
    deadLetterQueue := fun d hd => hexists (h.deadLetterQueue d hd) }

end Database.Valid

/-! ## Deleting rows -/

theorem deleteStatement_apply (ids : List Uuid) (messages : List QueueMessage) :
    (deleteStatement ids).apply messages = messages.filter fun m => m.id ∉ ids := by
  rw [Statement.apply, deleteStatement, Statement.delete, applyChanges, List.append_nil,
    ← List.filterMap_eq_filter]
  refine List.filterMap_congr fun m _ => ?_
  by_cases hm : m.id ∈ ids <;> simp [hm, Option.guard]

theorem deleteStatement_deleted (ids : List Uuid) (messages : List QueueMessage) :
    deletedRows (deleteStatement ids).change messages = messages.filter fun m => m.id ∈ ids := by
  refine List.filter_congr fun m _ => ?_
  by_cases hm : m.id ∈ ids <;> simp [deleteStatement, Statement.delete, hm]

theorem deleteStatement_written (ids : List Uuid) (messages : List QueueMessage) :
    (deleteStatement ids).written messages = [] := by
  have : updatedRows (deleteStatement ids).change messages = [] := by
    rw [List.eq_nil_iff_forall_not_mem]
    rintro ⟨m, m'⟩ hm
    obtain ⟨-, hch⟩ := mem_updatedRows.mp hm
    simp only [deleteStatement, Statement.delete] at hch
    split at hch <;> simp at hch
  rw [Statement.written, this]
  rfl

/-- A statement that only deletes is never rejected. -/
theorem deleteStatement_exec {db : Database} (h : db.Valid) (ids : List Uuid) :
    ∃ shards, (deleteStatement ids).exec db =
        .ok (db.withMessages (db.queueMessage.filter fun m => m.id ∉ ids) shards) ∧
      (db.withMessages (db.queueMessage.filter fun m => m.id ∉ ids) shards).Valid := by
  have hsub : ((deleteStatement ids).apply db.queueMessage).Sublist db.queueMessage := by
    rw [deleteStatement_apply]
    exact List.filter_sublist
  have hcheck : (deleteStatement ids).check db = .ok () := by
    rw [Statement.check_eq_ok, deleteStatement_written]
    exact ⟨by simp, (hsub.map _).nodup h.messages.ids, (hsub.map _).nodup h.messages.orders,
      by simp⟩
  rcases (deleteStatement ids).exec_cases h.toRollupValid with ⟨e, he, -⟩ | ⟨-, shards, -, hok, -⟩
  · rw [hcheck] at he
    simp at he
  · have hvalid := h.exec hok fun m hm =>
      ⟨h.drawn m (hsub.subset hm), h.attempts m (hsub.subset hm), h.payloads m (hsub.subset hm)⟩
    rw [deleteStatement_apply] at hok
    refine ⟨shards, hok, ?_⟩
    rw [deleteStatement_apply] at hvalid
    exact hvalid

/-- A statement that deletes nothing changes nothing. -/
theorem deleteStatement_nil {db : Database} (h : db.Valid) :
    (deleteStatement []).exec db = .ok db := by
  have htables : (deleteStatement []).transitionTables db.queueMessage .delete = .delete [] := by
    rw [Statement.transitionTables, deleteStatement_deleted]
    simp
  have hfire : (deleteStatement []).fire db = .ok db.queuePriorityStateShard := by
    show [TriggerEvent.delete].foldlM (fun shards event => maintainQueuePriorityState db.queue
      shards ((deleteStatement []).transitionTables db.queueMessage event)) _ = _
    simp only [List.foldlM_cons, List.foldlM_nil, htables]
    rfl
  obtain ⟨shards, hok, -⟩ := deleteStatement_exec h []
  rcases (deleteStatement []).exec_cases h.toRollupValid with
    ⟨e, -, he⟩ | ⟨-, shards', hfire', hok', -⟩
  · rw [hok] at he
    simp at he
  · rw [hfire] at hfire'
    injection hfire' with hshards
    rw [hok', ← hshards, deleteStatement_apply]
    simp

/-! ## The dequeue statement -/

/-- The message table after a dequeue. -/
def dequeuedMessages (receiptHandle : Uuid) (now : Int) (visibilityTimeoutSeconds : Int)
    (exhausted : List Uuid) (candidate : Option Uuid) (messages : List QueueMessage) :
    List QueueMessage :=
  (messages.filter fun m => m.id ∉ exhausted).map fun m =>
    if candidate = some m.id then m.lease receiptHandle now visibilityTimeoutSeconds else m

section DequeueStatement

variable {order : TriggerOrder} {receiptHandle : Uuid} {now : Int} {visibility : Int}
  {exhausted : List Uuid} {candidate : Option Uuid} {messages : List QueueMessage}

theorem dequeueStatement_apply :
    (dequeueStatement order receiptHandle now visibility exhausted candidate).apply messages =
      dequeuedMessages receiptHandle now visibility exhausted candidate messages := by
  rw [Statement.apply, dequeueStatement, applyChanges, List.append_nil, dequeuedMessages,
    ← List.filterMap_eq_map, ← List.filterMap_eq_filter, List.filterMap_filterMap]
  refine List.filterMap_congr fun m _ => ?_
  by_cases hm : m.id ∈ exhausted <;> by_cases hc : candidate = some m.id <;>
    simp [hm, hc, Option.guard]

theorem dequeueStatement_deleted :
    deletedRows (dequeueStatement order receiptHandle now visibility exhausted candidate).change
      messages = messages.filter fun m => m.id ∈ exhausted := by
  refine List.filter_congr fun m _ => ?_
  by_cases hm : m.id ∈ exhausted <;> by_cases hc : candidate = some m.id <;>
    simp [dequeueStatement, hm, hc]

theorem dequeueStatement_updated :
    updatedRows (dequeueStatement order receiptHandle now visibility exhausted candidate).change
      messages = (messages.filter fun m => candidate = some m.id ∧ m.id ∉ exhausted).map fun m =>
        (m, m.lease receiptHandle now visibility) := by
  rw [updatedRows, ← List.filterMap_eq_map, ← List.filterMap_eq_filter, List.filterMap_filterMap]
  refine List.filterMap_congr fun m _ => ?_
  by_cases hm : m.id ∈ exhausted <;> by_cases hc : candidate = some m.id <;>
    simp [dequeueStatement, hm, hc, Option.guard]

end DequeueStatement

/-- The rows a statement updates for its candidate: the candidate, if any. -/
theorem filter_candidate {messages : List QueueMessage} (hids : (messages.map (·.id)).Nodup)
    {candidate : Option QueueMessage} (hmem : ∀ m ∈ candidate, m ∈ messages)
    {exhausted : List Uuid} (hex : ∀ m ∈ candidate, m.id ∉ exhausted) :
    messages.filter (fun m => candidate.map (·.id) = some m.id ∧ m.id ∉ exhausted) =
      candidate.toList := by
  cases candidate with
  | none => simp
  | some c =>
    rw [Option.toList_some, ← filter_key_eq hids (hmem c rfl)]
    refine List.filter_congr fun m _ => ?_
    by_cases hm : m.id = c.id
    · simp [hm, hex c rfl]
    · simp [hm, Ne.symm hm]

theorem mem_dequeuedMessages {receiptHandle : Uuid} {now : Int} {visibility : Int}
    {exhausted : List Uuid} {candidate : Option Uuid} {messages : List QueueMessage}
    {m' : QueueMessage} :
    m' ∈ dequeuedMessages receiptHandle now visibility exhausted candidate messages ↔
      ∃ m ∈ messages, m.id ∉ exhausted ∧
        m' = if candidate = some m.id then m.lease receiptHandle now visibility else m := by
  simp only [dequeuedMessages, List.mem_map, List.mem_filter, decide_eq_true_eq]
  exact ⟨fun ⟨m, ⟨hm, hne⟩, heq⟩ => ⟨m, hm, hne, heq.symm⟩,
    fun ⟨m, hm, hne, heq⟩ => ⟨m, ⟨hm, hne⟩, heq.symm⟩⟩

/-- A lease keeps the columns that identify and order a message. -/
theorem dequeuedMessages_map {γ : Type} {f : QueueMessage → γ} {receiptHandle : Uuid}
    {now : Int} {visibility : Int} {exhausted : List Uuid} {candidate : Option Uuid}
    {messages : List QueueMessage} (hf : ∀ m, f (m.lease receiptHandle now visibility) = f m) :
    (dequeuedMessages receiptHandle now visibility exhausted candidate messages).map f =
      (messages.filter fun m => m.id ∉ exhausted).map f := by
  rw [dequeuedMessages, List.map_map]
  refine List.map_congr_left fun m _ => ?_
  simp only [Function.comp_apply]
  split
  · exact hf m
  · rfl

/-! ## Dead letters -/

/-- No message is both exhausted and deliverable, not even at different times. -/
theorem not_isDeadLetterCandidate {queue : QueueRow} {now now' : Int} {m : QueueMessage}
    (h : isCandidate queue now m) : ¬isDeadLetterCandidate queue now' m := by
  intro hexhausted
  simp only [isDeadLetterCandidate, isCandidate, decide_eq_true_eq] at hexhausted h
  omega

theorem deadLetter_eq_ok {m : QueueMessage} {now : Int} {d : QueueDeadLetterMessage} :
    m.deadLetter now = .ok d ↔ ∃ delivered, m.lastDeliveredAt = some delivered ∧
      d = ⟨m.id, m.queueId, m.payload, m.priority, m.enqueuedAt, m.expiresAt, m.deliveryAttempts,
        delivered, now, maxDeliveryAttemptsExhausted⟩ := by
  unfold QueueMessage.deadLetter
  cases m.lastDeliveredAt with
  | none => simp
  | some delivered => simp [eq_comm]

/-- A valid message in flight can be archived once its lease has elapsed. -/
theorem deadLetter_ok {m : QueueMessage} (hchecked : Checked queueMessageChecks m)
    {queue : QueueRow} {now : Int} (hdl : isDeadLetterCandidate queue now m) :
    ∃ d, m.deadLetter now = .ok d ∧ Checked queueDeadLetterMessageChecks d := by
  obtain ⟨hpriority, hattempts, ⟨hexpires, -⟩, hstate, havailable, hdelivered⟩ :=
    QueueMessage.checked_iff.mp hchecked
  simp only [isDeadLetterCandidate, decide_eq_true_eq] at hdl
  obtain ⟨-, hflight, helapsed, -, -⟩ := hdl
  obtain ⟨delivered, hlast⟩ : ∃ delivered, m.lastDeliveredAt = some delivered := by
    rcases hstate with ⟨hready, -⟩ | ⟨-, -, hlast, -⟩
    · simp [hflight] at hready
    · exact Option.ne_none_iff_exists'.mp hlast
  refine ⟨_, deadLetter_eq_ok.mpr ⟨delivered, hlast, rfl⟩, ?_⟩
  rw [hlast] at havailable
  rw [QueueDeadLetterMessage.checked_iff]
  exact ⟨hpriority, hattempts, rfl, hdelivered delivered hlast, hexpires,
    le_of_lt (lt_of_lt_of_le havailable helapsed)⟩

/-- A leased row satisfies the constraints, if the message was not enqueued after the lease. -/
theorem lease_checked {m : QueueMessage} (hchecked : Checked queueMessageChecks m)
    (receiptHandle : Uuid) (now : Int) {visibility : Int} (hvisibility : 1 ≤ visibility) :
    Checked queueMessageChecks (m.lease receiptHandle now visibility) ↔ m.enqueuedAt ≤ now := by
  obtain ⟨hpriority, hattempts, hexpires, -, -, -⟩ := QueueMessage.checked_iff.mp hchecked
  rw [QueueMessage.checked_iff]
  simp only [QueueMessage.lease, seconds]
  constructor
  · rintro ⟨-, -, -, -, -, h⟩
    exact h now rfl
  · intro h
    refine ⟨hpriority, by omega, hexpires, Or.inr ⟨trivial, by simp, by simp, by omega⟩,
      by omega, ?_⟩
    intro delivered hd
    exact (Option.mem_some_iff.mp hd) ▸ h

/-- The constraint that rejects a lease of a message enqueued after it. -/
theorem lease_rejected {m : QueueMessage} (hchecked : Checked queueMessageChecks m)
    (receiptHandle : Uuid) {now : Int} {visibility : Int} (hvisibility : 1 ≤ visibility)
    (hlate : now < m.enqueuedAt) :
    checkRow queueMessageChecks (m.lease receiptHandle now visibility) =
      .error (.checkViolation "queue_message_delivery_not_before_enqueue") := by
  obtain ⟨hpriority, hattempts, hexpires, -, -, -⟩ := QueueMessage.checked_iff.mp hchecked
  have h2 : 0 ≤ m.deliveryAttempts + 1 := by omega
  have h3 : 0 < m.deliveryAttempts + 1 := by omega
  have h5 : now < now + seconds visibility := by unfold seconds; omega
  simp [checkRow, queueMessageChecks, QueueMessage.lease, hpriority, hexpires, h2, h3, h5, hlate]

/-- The rows that exhausted messages are archived as, which satisfy every constraint. -/
theorem deadLetter_rows {db : Database} (h : db.Valid) {queue : QueueRow} {now : Int}
    {deleted : List QueueMessage}
    (hmem : ∀ m ∈ deleted, m ∈ db.queueMessage ∧ isDeadLetterCandidate queue now m) :
    ∃ stored, deleted.mapM (·.deadLetter now) = .ok stored ∧
      List.Forall₂ (fun m d => m.deadLetter now = .ok d) deleted stored ∧
      stored.map (·.id) = deleted.map (·.id) ∧
      ∀ d ∈ stored, Checked queueDeadLetterMessageChecks d := by
  have hrow : ∀ m ∈ deleted, ∃ d, m.deadLetter now = .ok d := fun m hm => by
    obtain ⟨d, hd, -⟩ := deadLetter_ok (h.messages.checked m (hmem m hm).1) (hmem m hm).2
    exact ⟨d, hd⟩
  obtain ⟨stored, hstored⟩ := mapM_ok hrow
  have hrows := mapM_eq_ok.mp hstored
  refine ⟨stored, hstored, hrows, forall₂_map_eq hrows fun m d hd => ?_, fun d hd => ?_⟩
  · obtain ⟨delivered, -, rfl⟩ := deadLetter_eq_ok.mp hd
    rfl
  · -- every stored row comes from a deleted one
    obtain ⟨m, hm, hmd⟩ := mem_right_of_forall₂ hrows hd
    obtain ⟨d', hd', hchecked⟩ := deadLetter_ok (h.messages.checked m (hmem m hm).1) (hmem m hm).2
    rw [hmd] at hd'
    injection hd' with hd'
    exact hd' ▸ hchecked

/-- The archived rows satisfy every constraint of their table, when their ids are new to it. -/
theorem insertDeadLetters_ok {db : Database} (h : db.Valid) {queue : QueueRow} {now : Int}
    {deleted : List QueueMessage} (hnd : (deleted.map (·.id)).Nodup)
    (hmem : ∀ m ∈ deleted, m ∈ db.queueMessage ∧ isDeadLetterCandidate queue now m)
    (hfresh : ∀ m ∈ deleted, ∀ d ∈ db.queueDeadLetterMessage, d.id ≠ m.id) :
    ∃ stored, insertDeadLetters db deleted now =
        .ok { db with queueDeadLetterMessage := db.queueDeadLetterMessage ++ stored } ∧
      List.Forall₂ (fun m d => m.deadLetter now = .ok d) deleted stored ∧
      ({ db with queueDeadLetterMessage := db.queueDeadLetterMessage ++ stored } :
        Database).Valid := by
  obtain ⟨stored, hstored, hrows, hids, hchecked⟩ := deadLetter_rows h hmem
  have hqueue : ∀ d ∈ stored, ∃ q ∈ db.queue, q.id = d.queueId := by
    intro d hd
    obtain ⟨m, hm, hmd⟩ := mem_right_of_forall₂ hrows hd
    obtain ⟨delivered, -, rfl⟩ := deadLetter_eq_ok.mp hmd
    exact h.messages.queue m (hmem m hm).1
  have hunique : ((db.queueDeadLetterMessage ++ stored).map (·.id)).Nodup := by
    rw [List.map_append, hids]
    refine h.deadLetterIds.append hnd fun id hd hm => ?_
    obtain ⟨d, hmem, rfl⟩ := List.mem_map.mp hd
    obtain ⟨m, hm, hid⟩ := List.mem_map.mp hm
    exact hfresh m hm d hmem hid.symm
  refine ⟨stored, ?_, hrows, { h with
    messages := h.messages
    rollup := h.rollup
    deadLetterIds := hunique
    deadLetterChecked := List.forall_mem_append.mpr ⟨h.deadLetterChecked, hchecked⟩
    deadLetterQueue := List.forall_mem_append.mpr ⟨h.deadLetterQueue, hqueue⟩ }⟩
  rw [insertDeadLetters, bind_eq_ok]
  refine ⟨stored, hstored, ?_⟩
  simp only [guard_eq_ok, forEach_eq_ok, checkRow_eq_ok, require_eq_ok, pure_eq_ok, queueExists_iff]
  exact ⟨hchecked, hunique, hqueue, trivial⟩

/-- Exhausted messages that are archived already are rejected, by the primary key. -/
theorem insertDeadLetters_duplicate {db : Database} (h : db.Valid) {queue : QueueRow} {now : Int}
    {deleted : List QueueMessage}
    (hmem : ∀ m ∈ deleted, m ∈ db.queueMessage ∧ isDeadLetterCandidate queue now m)
    {m : QueueMessage} (hm : m ∈ deleted) {d : QueueDeadLetterMessage}
    (hd : d ∈ db.queueDeadLetterMessage) (hid : d.id = m.id) :
    insertDeadLetters db deleted now =
      .error (.uniqueViolation "queue_dead_letter_message_pkey") := by
  obtain ⟨stored, hstored, -, hids, hchecked⟩ := deadLetter_rows h hmem
  have hduplicate : ¬((db.queueDeadLetterMessage ++ stored).map (·.id)).Nodup := by
    rw [List.map_append, hids]
    intro hunique
    exact (List.nodup_append.mp hunique).2.2 d.id (List.mem_map_of_mem hd) m.id
      (List.mem_map_of_mem hm) hid
  rw [insertDeadLetters, bind_eq_error]
  refine Or.inr ⟨stored, hstored, ?_⟩
  simp only [guard_eq_error, forEach_eq_ok, checkRow_eq_ok, require_eq_error]
  exact Or.inr ⟨hchecked, Or.inl ⟨hduplicate, trivial⟩⟩

/-- What is already archived cannot be archived again. -/
theorem insertDeadLetters_fresh {db db' : Database} {now : Int} {deleted : List QueueMessage}
    (hok : insertDeadLetters db deleted now = .ok db') :
    ∀ m ∈ deleted, ∀ d ∈ db.queueDeadLetterMessage, d.id ≠ m.id := by
  rw [insertDeadLetters, bind_eq_ok] at hok
  obtain ⟨stored, hstored, hok⟩ := hok
  simp only [guard_eq_ok, require_eq_ok] at hok
  obtain ⟨-, hunique, -, -⟩ := hok
  intro m hm d hd hid
  have hids : stored.map (·.id) = deleted.map (·.id) :=
    forall₂_map_eq (mapM_eq_ok.mp hstored) fun m d hd => by
      obtain ⟨delivered, -, rfl⟩ := deadLetter_eq_ok.mp hd
      rfl
  rw [List.map_append, hids] at hunique
  exact (List.nodup_append.mp hunique).2.2 d.id (List.mem_map_of_mem hd) m.id
    (List.mem_map_of_mem hm) hid

end Retsu
