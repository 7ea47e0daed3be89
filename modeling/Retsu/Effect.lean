/-
  What an operation can do to the database.

  `Effect db now op response db'` lists everything `op` can do at `now`, one constructor for
  each outcome and each with the guards that hold there.  The rest of the development takes
  operations apart with it and never unfolds a statement again.

  The lemmas `execute…_effect` are about the rows a statement has selected, however it came to
  select them: a statement that runs concurrently with others has the same effects.
-/
import Retsu.Integrity

namespace Retsu

open Relational

/-! ## The outcome of a dequeue -/

/-- The result a dequeue decodes for the message it leases (before the lease), if any. -/
inductive Delivers (queueName : String) (receiptHandle : Uuid) (deadLettered : Nat) :
    Option QueueMessage → DequeueMessageOutcome → Prop
  | empty : Delivers queueName receiptHandle deadLettered none (.empty queueName deadLettered)
  | dequeued {m : QueueMessage} {payload : String} {priority : MessagePriority}
      (hpayload : m.payload = payload.toByteArray) (hpriority : m.priority = priority.rank) :
      Delivers queueName receiptHandle deadLettered (some m)
        (.dequeued m.id payload priority receiptHandle (m.deliveryAttempts + 1).toNat queueName
          deadLettered)

/-! ## Effects -/

/-- `queues` is the queue table that a dequeue has read: the one of `db`, or that of an older
    snapshot. -/
inductive Effect (queues : List QueueRow) (db : Database) (now : Int) :
    Operation → Response → Database → Prop
  | failed {op : Operation} {error : RepositoryError} {seq : Int}
      (hseq : db.enqueueOrderSequence ≤ seq) :
      Effect queues db now op (.failed error) { db with enqueueOrderSequence := seq }
  | alreadyExists {queue : Queue} :
      Effect queues db now (.createQueue queue) (.createQueue .alreadyExists) db
  | created {queue : Queue} {row : QueueRow} (hrow : queue.row now = .ok row)
      (hid : ∀ q ∈ db.queue, q.id ≠ row.id) (hname : ∀ q ∈ db.queue, q.name ≠ row.name) :
      Effect queues db now (.createQueue queue) (.createQueue .created)
        { db with queue := db.queue ++ [row] }
  | notConfigured {queueId : Uuid} {configuration : QueueConfigurationUpdate}
      (hid : ∀ q ∈ db.queue, q.id ≠ queueId) :
      Effect queues db now (.updateQueue queueId configuration) (.updateQueue none) db
  | configured {queueId : Uuid} {configuration : QueueConfigurationUpdate}
      {row updated : QueueRow} {details : QueueDetails} (hrow : row ∈ db.queue)
      (hrowid : row.id = queueId) (hid : updated.id = row.id) (hname : updated.name = row.name)
      (hchecked : Checked queueChecks updated) :
      Effect queues db now (.updateQueue queueId configuration) (.updateQueue (some details))
        { db with queue := db.queue.map fun q => if q.id = queueId then updated else q }
  | enqueued {queueId : Uuid} {message : Message} {ttl : UInt32} {order seq : Int}
      {shards : List QueuePriorityStateShard} (hqueue : ∃ q ∈ db.queue, q.id = queueId)
      (hid : ∀ m ∈ db.queueMessage, m.id ≠ message.id)
      (hchecked : Checked queueMessageChecks (message.row queueId ttl order now))
      (hseq : db.enqueueOrderSequence ≤ seq) :
      Effect queues db now (.enqueueMessage queueId message ttl) .enqueueMessage
        { db with
          queueMessage := db.queueMessage ++ [message.row queueId ttl order now]
          queuePriorityStateShard := shards
          enqueueOrderSequence := seq }
  | queueNotFound {queueId receiptHandle : Uuid} :
      Effect queues db now (.dequeueMessage queueId receiptHandle) (.dequeueMessage .queueNotFound) db
  | dequeued {queueId receiptHandle : Uuid} {queue : QueueRow}
      {exhausted deleted : List QueueMessage} {candidate : Option QueueMessage}
      {stored : List QueueDeadLetterMessage} {outcome : DequeueMessageOutcome}
      {shards : List QueuePriorityStateShard} (hqueue : queue ∈ queues)
      (hchecked : Checked queueChecks queue) (hid : queue.id = queueId)
      (hnodup : exhausted.Nodup)
      (hexhausted : ∀ m ∈ exhausted, m ∈ db.queueMessage ∧ isDeadLetterCandidate queue now m)
      (hcandidate : ∀ m ∈ candidate, m ∈ db.queueMessage ∧ isCandidate queue now m ∧
        m.enqueuedAt ≤ now)
      (hdeleted : deleted.Perm exhausted)
      (hstored : List.Forall₂ (fun m d => m.deadLetter now = .ok d) deleted stored)
      (houtcome : Delivers queue.name receiptHandle exhausted.length candidate outcome) :
      Effect queues db now (.dequeueMessage queueId receiptHandle) (.dequeueMessage outcome)
        { db with
          queueMessage := dequeuedMessages receiptHandle now queue.visibilityTimeoutSeconds
            (exhausted.map (·.id)) (candidate.map (·.id)) db.queueMessage
          queueDeadLetterMessage := db.queueDeadLetterMessage ++ stored
          queuePriorityStateShard := shards }
  | acknowledged {queueId messageId receiptHandle : Uuid} {m : QueueMessage}
      {shards : List QueuePriorityStateShard} (hm : m ∈ db.queueMessage)
      (hack : isAcknowledgeable queueId messageId receiptHandle now m) :
      Effect queues db now (.acknowledgeMessage queueId messageId receiptHandle)
        (.acknowledgeMessage .acknowledged)
        (db.withMessages (db.queueMessage.filter fun m => m.id ≠ messageId) shards)
  | unchanged {queueId messageId receiptHandle : Uuid} :
      Effect queues db now (.acknowledgeMessage queueId messageId receiptHandle)
        (.acknowledgeMessage .unchanged) db
  | expired {batchSize : UInt32} {expired : List QueueMessage}
      {summary : ExpiredMessagesCleanupSummary} {shards : List QueuePriorityStateShard}
      (hexpired : ∀ m ∈ expired, m ∈ db.queueMessage ∧ isExpired now m)
      (hsummary : decodeExpired (processExpiredMessagesRows db.queue
        (db.queueMessage.filter fun m => m.id ∈ expired.map (·.id))) = .ok summary) :
      Effect queues db now (.processExpiredMessages batchSize) (.processExpiredMessages summary)
        (db.withMessages (db.queueMessage.filter fun m => m.id ∉ expired.map (·.id)) shards)
  | purged {retentionSeconds : Int} {batchSize : UInt32} {purged : List QueueDeadLetterMessage}
      {summary : DeadLetterMessagesPurgeSummary}
      (hpurged : ∀ d ∈ purged, d ∈ db.queueDeadLetterMessage ∧
        isPurgeable retentionSeconds now d)
      (hsummary : decodePurged (purgeDeadLetterMessagesRows db.queue
        (db.queueDeadLetterMessage.filter fun d => d.id ∈ purged.map (·.id))) = .ok summary) :
      Effect queues db now (.purgeDeadLetterMessages retentionSeconds batchSize)
        (.purgeDeadLetterMessages summary)
        { db with
          queueDeadLetterMessage :=
            db.queueDeadLetterMessage.filter fun d => d.id ∉ purged.map (·.id) }

/-! ## Acknowledge -/

/-- An acknowledge finds one row at most. -/
theorem found_cases {db : Database} (h : db.Valid) (queueId messageId receiptHandle : Uuid)
    (now : Int) :
    db.queueMessage.filter (isAcknowledgeable queueId messageId receiptHandle now) = [] ∨
      ∃ m, m.id = messageId ∧
        db.queueMessage.filter (isAcknowledgeable queueId messageId receiptHandle now) = [m] := by
  have hnodup : ((db.queueMessage.filter
      (isAcknowledgeable queueId messageId receiptHandle now)).map (·.id)).Nodup :=
    (List.filter_sublist.map _).nodup h.messages.ids
  have hid : ∀ m ∈ db.queueMessage.filter
      (isAcknowledgeable queueId messageId receiptHandle now), m.id = messageId := by
    intro m hm
    have hack := (List.mem_filter.mp hm).2
    simp only [isAcknowledgeable, decide_eq_true_eq] at hack
    exact hack.1
  match db.queueMessage.filter (isAcknowledgeable queueId messageId receiptHandle now), hnodup,
    hid with
  | [], _, _ => exact Or.inl rfl
  | [m], _, hid => exact Or.inr ⟨m, hid m List.mem_cons_self, rfl⟩
  | m :: m' :: rest, hnodup, hid => simp [hid m, hid m'] at hnodup

/-- An acknowledge that found no row. -/
theorem executeAcknowledge_nil {db : Database} (h : db.Valid) :
    executeAcknowledge db [] = .ok (db, .unchanged) := by
  simp only [executeAcknowledge, deleteStatement_nil h, bind_eq_ok, pure_eq_ok]
  exact ⟨db, rfl, by simp [deleteStatement_deleted]⟩

/-- An acknowledge that found a row deletes this row. -/
theorem executeAcknowledge_singleton {db : Database} (h : db.Valid) {m : QueueMessage}
    (hm : m ∈ db.queueMessage) :
    ∃ shards, executeAcknowledge db [m.id] =
        .ok (db.withMessages (db.queueMessage.filter fun r => r.id ≠ m.id) shards,
          .acknowledged) ∧
      (db.withMessages (db.queueMessage.filter fun r => r.id ≠ m.id) shards).Valid := by
  obtain ⟨shards, hok, hvalid⟩ := deleteStatement_exec h [m.id]
  simp only [List.mem_singleton] at hok hvalid
  refine ⟨shards, ?_, hvalid⟩
  have hdeleted : deletedRows (deleteStatement [m.id]).change db.queueMessage ≠ [] := by
    rw [deleteStatement_deleted]
    exact List.ne_nil_of_mem (List.mem_filter.mpr ⟨hm, by simp⟩)
  simp only [executeAcknowledge, hok, bind_eq_ok, pure_eq_ok, if_neg hdeleted]
  exact ⟨_, rfl, rfl⟩

/-- **Acknowledge**: it deletes the one row that matches, or changes nothing. -/
theorem executeAcknowledge_effect (queues : List QueueRow) {db : Database} (h : db.Valid) (now : Int)
    (queueId messageId receiptHandle : Uuid) {found : List QueueMessage} (hnd : found.Nodup)
    (hfound : ∀ m ∈ found, m ∈ db.queueMessage ∧
      isAcknowledgeable queueId messageId receiptHandle now m) :
    ∃ db' response, settle db .acknowledgeMessage
        (executeAcknowledge db (found.map (·.id))) = (db', response) ∧
      response = .acknowledgeMessage (if found = [] then .unchanged else .acknowledged) ∧
      Effect queues db now (.acknowledgeMessage queueId messageId receiptHandle) response db' ∧
      db'.Valid := by
  match found, hnd, hfound with
  | [], _, _ =>
    refine ⟨db, _, ?_, rfl, .unchanged, h⟩
    rw [List.map_nil, executeAcknowledge_nil h]
    rfl
  | [m], _, hfound =>
    obtain ⟨hm, hack⟩ := hfound m List.mem_cons_self
    obtain ⟨shards, hok, hvalid⟩ := executeAcknowledge_singleton h hm
    have hid : m.id = messageId := by
      simp only [isAcknowledgeable, decide_eq_true_eq] at hack
      exact hack.1
    refine ⟨_, _, ?_, rfl, ?_, hvalid⟩
    · rw [List.map_singleton, hok]
      rfl
    · rw [hid]
      exact .acknowledged hm hack
  | m :: m' :: rest, hnd, hfound =>
    obtain ⟨hm, hack⟩ := hfound m List.mem_cons_self
    obtain ⟨hm', hack'⟩ := hfound m' (by simp)
    simp only [isAcknowledgeable, decide_eq_true_eq] at hack hack'
    -- two rows with the identifier are one row
    have := eq_of_key_eq h.messages.ids hm hm' (hack.1.trans hack'.1.symm)
    simp [this] at hnd

/-! ## Cleaners -/

/-- Counts never fail to decode. -/
theorem decodeExpired_rows (queues : List QueueRow) (deleted : List QueueMessage) :
    decodeExpired (processExpiredMessagesRows queues deleted) =
      .ok ⟨(processExpiredMessagesRows queues deleted).map fun row =>
        ⟨row.1, row.2.1.toNat, row.2.2.toNat⟩⟩ := by
  have hrow : ∀ row ∈ processExpiredMessagesRows queues deleted, 0 ≤ row.2.1 ∧ 0 ≤ row.2.2 := by
    intro row hrow
    obtain ⟨-, hv⟩ := mem_aggregate.mp hrow
    rw [hv]
    exact ⟨Int.natCast_nonneg _, Int.natCast_nonneg _⟩
  rw [decodeExpired]
  simp only [bind_eq_ok, pure_eq_ok]
  refine ⟨_, mapM_eq_ok.mpr (List.forall₂_map_right_iff.mpr (List.forall₂_same.mpr ?_)), rfl⟩
  intro row hmem
  obtain ⟨hnever, hpreviously⟩ := hrow row hmem
  simp [tryFromSigned, hnever, hpreviously, bind, Except.bind, pure, Except.pure]

theorem decodePurged_rows (queues : List QueueRow) (deleted : List QueueDeadLetterMessage) :
    decodePurged (purgeDeadLetterMessagesRows queues deleted) =
      .ok ⟨(purgeDeadLetterMessagesRows queues deleted).map fun row => ⟨row.1, row.2.toNat⟩⟩ := by
  have hrow : ∀ row ∈ purgeDeadLetterMessagesRows queues deleted, 0 ≤ row.2 := by
    intro row hrow
    obtain ⟨-, hv⟩ := mem_aggregate.mp hrow
    rw [hv]
    exact Int.natCast_nonneg _
  rw [decodePurged]
  simp only [bind_eq_ok, pure_eq_ok]
  refine ⟨_, mapM_eq_ok.mpr (List.forall₂_map_right_iff.mpr (List.forall₂_same.mpr ?_)), rfl⟩
  intro row hmem
  simp [tryFromSigned, hrow row hmem, bind, Except.bind, pure, Except.pure]

/-- **Expired cleanup**: it deletes the rows it has selected and reports them. -/
theorem executeExpired_effect (queues : List QueueRow) {db : Database} (h : db.Valid) (now : Int)
    (batchSize : UInt32) {expired : List QueueMessage}
    (hexpired : ∀ m ∈ expired, m ∈ db.queueMessage ∧ isExpired now m) :
    ∃ db' summary, settle db (fun rows => respond .processExpiredMessages (decodeExpired rows))
        (executeExpired db (expired.map (·.id))) = (db', .processExpiredMessages summary) ∧
      Effect queues db now (.processExpiredMessages batchSize) (.processExpiredMessages summary)
        db' ∧ db'.Valid := by
  obtain ⟨shards, hok, hvalid⟩ := deleteStatement_exec h (expired.map (·.id))
  have hsummary := decodeExpired_rows db.queue
    (db.queueMessage.filter fun m => m.id ∈ expired.map (·.id))
  have hexec : executeExpired db (expired.map (·.id)) =
      .ok (db.withMessages (db.queueMessage.filter fun m => m.id ∉ expired.map (·.id)) shards,
        processExpiredMessagesRows db.queue
          (db.queueMessage.filter fun m => m.id ∈ expired.map (·.id))) := by
    simp only [executeExpired, hok, bind_eq_ok, pure_eq_ok, deleteStatement_deleted]
    exact ⟨_, rfl, rfl⟩
  rw [hexec]
  exact ⟨_, _, by simp only [settle, hsummary, respond], .expired hexpired hsummary, hvalid⟩

/-- **Purge**: it deletes the dead-letter rows it has selected and reports them. -/
theorem executePurge_effect (queues : List QueueRow) {db : Database} (h : db.Valid) (now : Int)
    {retentionSeconds : Int} (batchSize : UInt32) {purged : List QueueDeadLetterMessage}
    (hpurged : ∀ d ∈ purged, d ∈ db.queueDeadLetterMessage ∧ isPurgeable retentionSeconds now d) :
    ∃ summary, respond .purgeDeadLetterMessages
        (decodePurged (executePurge db (purged.map (·.id))).2) =
          .purgeDeadLetterMessages summary ∧
      Effect queues db now (.purgeDeadLetterMessages retentionSeconds batchSize)
        (.purgeDeadLetterMessages summary) (executePurge db (purged.map (·.id))).1 ∧
      (executePurge db (purged.map (·.id))).1.Valid := by
  have hsummary := decodePurged_rows db.queue
    (db.queueDeadLetterMessage.filter fun d => d.id ∈ purged.map (·.id))
  refine ⟨_, ?_, .purged hpurged hsummary, { h with
    messages := h.messages
    rollup := h.rollup
    deadLetterIds := (List.filter_sublist.map _).nodup h.deadLetterIds
    deadLetterChecked := fun d hd => h.deadLetterChecked d (List.mem_filter.mp hd).1
    deadLetterQueue := fun d hd => h.deadLetterQueue d (List.mem_filter.mp hd).1 }⟩
  simp only [executePurge, hsummary, respond]

/-! ## Dequeue -/

/-- What the dequeue statement's rows say about the row that it decodes. -/
theorem decodeDequeue_ok (queue : QueueRow) (receiptHandle : Uuid) (now visibility : Int)
    (deadLettered : Nat) {candidate : Option QueueMessage}
    (hcandidate : ∀ m ∈ candidate, Checked queueMessageChecks m ∧
      ∃ text : String, m.payload = text.toByteArray) :
    ∃ outcome, decodeDequeue receiptHandle (dequeueMessageRow (some queue)
        (candidate.map fun m => m.lease receiptHandle now visibility) deadLettered) = .ok outcome ∧
      Delivers queue.name receiptHandle deadLettered candidate outcome := by
  cases candidate with
  | none =>
    refine ⟨_, ?_, .empty⟩
    simp [decodeDequeue, dequeueMessageRow, tryFromSigned, bind, Except.bind]
  | some m =>
    obtain ⟨hchecked, text, htext⟩ := hcandidate m rfl
    obtain ⟨hpriority, hattempts, -⟩ := QueueMessage.checked_iff.mp hchecked
    obtain ⟨priority, hrank, hinv⟩ := MessagePriority.exists_rank hpriority
    have hutf8 : String.fromUTF8? m.payload = some text := by
      rw [htext]
      exact dif_pos text.isValidUTF8
    refine ⟨_, ?_, .dequeued htext hinv⟩
    have : 0 ≤ m.deliveryAttempts + 1 := by omega
    simp [decodeDequeue, dequeueMessageRow, tryFromSigned, QueueMessage.lease, hutf8, hrank, this,
      bind, Except.bind, pure, Except.pure]

/-- What can reject a dequeue. -/
def dequeueRejections : List SqlError := [
  .uniqueViolation "queue_dead_letter_message_pkey",
  .checkViolation "queue_message_delivery_not_before_enqueue"]

/-- What a dequeue answers that has read this queue, or none: its result row always decodes. -/
inductive Answers (queue : Option QueueRow) : Response → Prop
  | notFound (hqueue : queue = none) : Answers queue (.dequeueMessage .queueNotFound)
  | answered {outcome : DequeueMessageOutcome} (hqueue : queue ≠ none)
      (hfound : outcome ≠ .queueNotFound) : Answers queue (.dequeueMessage outcome)
  | rejected {e : SqlError} (hqueue : queue ≠ none) (he : e ∈ dequeueRejections) :
      Answers queue (.failed (.sql e))

/-- The rows that a dequeue has selected: some of them exhausted, and at most one to lease. -/
structure DequeueSelection (db : Database) (queue : QueueRow) (now : Int)
    (exhausted : List QueueMessage) (candidate : Option QueueMessage) : Prop where
  checked : Checked queueChecks queue
  nodup : exhausted.Nodup
  exhausted : ∀ m ∈ exhausted, m ∈ db.queueMessage ∧ isDeadLetterCandidate queue now m
  candidate : ∀ m ∈ candidate, m ∈ db.queueMessage ∧ isCandidate queue now m

section ExecuteDequeue

variable {db : Database} {queue : QueueRow} {now : Int} {exhausted : List QueueMessage}
  {candidate : Option QueueMessage} (order : TriggerOrder) (receiptHandle : Uuid)

/-- The two selections exclude each other. -/
theorem DequeueSelection.disjoint (h : db.Valid)
    (hsel : DequeueSelection db queue now exhausted candidate) :
    ∀ m ∈ candidate, m.id ∉ exhausted.map (·.id) := by
  intro m hm hmem
  obtain ⟨hmdb, hcandidate⟩ := hsel.candidate m hm
  exact not_isDeadLetterCandidate hcandidate
    (of_key_mem h.messages.ids hsel.exhausted hmdb hmem)

/-- The statement writes the leased candidate and nothing else. -/
theorem DequeueSelection.leased (h : db.Valid)
    (hsel : DequeueSelection db queue now exhausted candidate) :
    (updatedRows (dequeueStatement order receiptHandle now queue.visibilityTimeoutSeconds
        (exhausted.map (·.id)) (candidate.map (·.id))).change db.queueMessage).map Prod.snd =
      (candidate.map fun m =>
        m.lease receiptHandle now queue.visibilityTimeoutSeconds).toList := by
  rw [dequeueStatement_updated, filter_candidate h.messages.ids (fun m hm => (hsel.candidate m hm).1)
    (hsel.disjoint h)]
  cases candidate <;> rfl

/-- The checks on the message table pass exactly when no lease lies before the enqueue. -/
theorem DequeueSelection.check (h : db.Valid)
    (hsel : DequeueSelection db queue now exhausted candidate) :
    (dequeueStatement order receiptHandle now queue.visibilityTimeoutSeconds
        (exhausted.map (·.id)) (candidate.map (·.id))).check db = .ok () ↔
      ∀ m ∈ candidate, m.enqueuedAt ≤ now := by
  have hvisibility := (QueueRow.checked_iff.mp hsel.checked).2.2.1.1
  have hwritten : (dequeueStatement order receiptHandle now queue.visibilityTimeoutSeconds
      (exhausted.map (·.id)) (candidate.map (·.id))).written db.queueMessage =
      (candidate.map fun m =>
        m.lease receiptHandle now queue.visibilityTimeoutSeconds).toList := by
    rw [Statement.written, hsel.leased order receiptHandle h]
    exact List.append_nil _
  rw [Statement.check_eq_ok, hwritten, dequeueStatement_apply, dequeuedMessages_map fun _ => rfl,
    dequeuedMessages_map fun _ => rfl]
  have hids := (List.filter_sublist (p := fun m : QueueMessage => m.id ∉ exhausted.map (·.id))
    (l := db.queueMessage)).map (·.id) |>.nodup h.messages.ids
  have horders := (List.filter_sublist (p := fun m : QueueMessage => m.id ∉ exhausted.map (·.id))
    (l := db.queueMessage)).map (·.enqueueOrder) |>.nodup h.messages.orders
  cases candidate with
  | none => exact ⟨fun _ => by simp, fun _ => ⟨by simp, hids, horders, by simp⟩⟩
  | some m =>
    obtain ⟨hm, -⟩ := hsel.candidate m rfl
    have hlease := lease_checked (h.messages.checked m hm) receiptHandle now hvisibility
    simp only [Option.map_some, Option.toList_some, List.mem_singleton, forall_eq,
      Option.mem_some_iff, forall_eq', hlease]
    exact ⟨fun hc => hc.1, fun hc => ⟨hc, hids, horders, h.messages.queue m hm⟩⟩

/-- The leased row fits the SMALLINT column. -/
theorem DequeueSelection.smallint (h : db.Valid)
    (hsel : DequeueSelection db queue now exhausted candidate) :
    ∀ m ∈ (updatedRows (dequeueStatement order receiptHandle now queue.visibilityTimeoutSeconds
        (exhausted.map (·.id)) (candidate.map (·.id))).change db.queueMessage).map Prod.snd,
      m.deliveryAttempts < 2 ^ 15 := by
  rw [hsel.leased order receiptHandle h]
  have hmax := (QueueRow.checked_iff.mp hsel.checked).2.2.2.1.2
  intro m hm
  obtain ⟨c, hc, rfl⟩ := Option.map_eq_some_iff.mp (Option.mem_toList.mp hm)
  obtain ⟨-, hcand⟩ := hsel.candidate c hc
  simp only [isCandidate, decide_eq_true_eq] at hcand
  show c.deliveryAttempts + 1 < 2 ^ 15
  omega

/-- The rows left behind by a dequeue are as good as those before it. -/
theorem DequeueSelection.rows (h : db.Valid)
    (hsel : DequeueSelection db queue now exhausted candidate) :
    ∀ m ∈ dequeuedMessages receiptHandle now queue.visibilityTimeoutSeconds
        (exhausted.map (·.id)) (candidate.map (·.id)) db.queueMessage,
      m.enqueueOrder < db.enqueueOrderSequence ∧ m.deliveryAttempts ≤ 100 ∧
        ∃ text : String, m.payload = text.toByteArray := by
  have hmax := (QueueRow.checked_iff.mp hsel.checked).2.2.2.1.2
  intro m hm
  obtain ⟨r, hr, -, rfl⟩ := mem_dequeuedMessages.mp hm
  split
  · rename_i hc
    have hcand := of_key_eq_some h.messages.ids hsel.candidate hr hc
    simp only [isCandidate, decide_eq_true_eq] at hcand
    refine ⟨h.drawn r hr, ?_, h.payloads r hr⟩
    show r.deliveryAttempts + 1 ≤ 100
    omega
  · exact ⟨h.drawn r hr, h.attempts r hr, h.payloads r hr⟩

/-- **Dequeue, accepted**: exhausted rows that are new to the archive move there, and the
    candidate is leased, unless it was enqueued after this dequeue's time. -/
theorem executeDequeue_ok (h : db.Valid)
    (hsel : DequeueSelection db queue now exhausted candidate)
    (hfresh : ∀ m ∈ exhausted, ∀ d ∈ db.queueDeadLetterMessage, d.id ≠ m.id)
    (htimely : ∀ m ∈ candidate, m.enqueuedAt ≤ now) :
    ∃ deleted stored shards, deleted.Perm exhausted ∧
      List.Forall₂ (fun m d => m.deadLetter now = .ok d) deleted stored ∧
      executeDequeue order db queue receiptHandle now (exhausted.map (·.id))
          (candidate.map (·.id)) =
        .ok ({ db with
          queueMessage := dequeuedMessages receiptHandle now queue.visibilityTimeoutSeconds
            (exhausted.map (·.id)) (candidate.map (·.id)) db.queueMessage
          queueDeadLetterMessage := db.queueDeadLetterMessage ++ stored
          queuePriorityStateShard := shards },
          dequeueMessageRow (some queue) (candidate.map fun m =>
            m.lease receiptHandle now queue.visibilityTimeoutSeconds) exhausted.length) ∧
      ({ db with
        queueMessage := dequeuedMessages receiptHandle now queue.visibilityTimeoutSeconds
          (exhausted.map (·.id)) (candidate.map (·.id)) db.queueMessage
        queueDeadLetterMessage := db.queueDeadLetterMessage ++ stored
        queuePriorityStateShard := shards } : Database).Valid := by
  have hperm : (db.queueMessage.filter fun m => m.id ∈ exhausted.map (·.id)).Perm exhausted :=
    filter_mem_keys_perm h.messages.ids (fun m hm => (hsel.exhausted m hm).1) hsel.nodup
  obtain ⟨stored, hinsert, hstored, hvalid⟩ := insertDeadLetters_ok h
    ((List.filter_sublist.map _).nodup h.messages.ids)
    (fun m hm => hsel.exhausted m (hperm.mem_iff.mp hm))
    (fun m hm => hfresh m (hperm.mem_iff.mp hm))
  -- the statement's checks do not look at the archive
  have hcheck : (dequeueStatement order receiptHandle now queue.visibilityTimeoutSeconds
      (exhausted.map (·.id)) (candidate.map (·.id))).check
        { db with queueDeadLetterMessage := db.queueDeadLetterMessage ++ stored } = .ok () :=
    (hsel.check order receiptHandle h).mpr htimely
  rcases Statement.exec_cases hvalid.toRollupValid (dequeueStatement order receiptHandle now
    queue.visibilityTimeoutSeconds (exhausted.map (·.id)) (candidate.map (·.id)))
    with ⟨e, he, -⟩ | ⟨-, shards, -, hexec, -⟩
  · rw [hcheck] at he
    simp at he
  have hafter := hvalid.exec hexec fun m hm => hsel.rows receiptHandle h m (dequeueStatement_apply ▸ hm)
  rw [dequeueStatement_apply] at hexec hafter
  refine ⟨_, stored, shards, hperm, hstored, ?_, hafter⟩
  rw [executeDequeue, guard_eq_ok, require_eq_ok]
  refine ⟨hsel.smallint order receiptHandle h, ?_⟩
  rw [bind_eq_ok, dequeueStatement_deleted]
  refine ⟨_, hinsert, ?_⟩
  rw [bind_eq_ok]
  refine ⟨_, hexec, ?_⟩
  rw [pure_eq_ok, hsel.leased order receiptHandle h, hperm.length_eq, Option.head?_toList]

/-- A dequeue that is accepted answers with the message that it leases. -/
theorem executeDequeue_delivers (h : db.Valid)
    (hsel : DequeueSelection db queue now exhausted candidate)
    (hfresh : ∀ m ∈ exhausted, ∀ d ∈ db.queueDeadLetterMessage, d.id ≠ m.id)
    (htimely : ∀ m ∈ candidate, m.enqueuedAt ≤ now) :
    ∃ stored shards outcome,
      Delivers queue.name receiptHandle exhausted.length candidate outcome ∧
      settle db (fun row => respond .dequeueMessage (decodeDequeue receiptHandle row))
          (executeDequeue order db queue receiptHandle now (exhausted.map (·.id))
            (candidate.map (·.id))) =
        ({ db with
          queueMessage := dequeuedMessages receiptHandle now queue.visibilityTimeoutSeconds
            (exhausted.map (·.id)) (candidate.map (·.id)) db.queueMessage
          queueDeadLetterMessage := db.queueDeadLetterMessage ++ stored
          queuePriorityStateShard := shards }, .dequeueMessage outcome) := by
  obtain ⟨deleted, stored, shards, -, -, hok, -⟩ :=
    executeDequeue_ok order receiptHandle h hsel hfresh htimely
  obtain ⟨outcome, hdecode, hdelivers⟩ := decodeDequeue_ok queue receiptHandle now
    queue.visibilityTimeoutSeconds exhausted.length fun m hm =>
      ⟨h.messages.checked m (hsel.candidate m hm).1, h.payloads m (hsel.candidate m hm).1⟩
  refine ⟨stored, shards, outcome, hdelivers, ?_⟩
  simp only [hok, settle, hdecode, respond]

/-- A dequeue that succeeds has leased no message before its enqueue and archived none twice. -/
theorem executeDequeue_inv (h : db.Valid)
    (hsel : DequeueSelection db queue now exhausted candidate) {result : Database × DequeueMessageRow}
    (hok : executeDequeue order db queue receiptHandle now (exhausted.map (·.id))
      (candidate.map (·.id)) = .ok result) :
    (∀ m ∈ exhausted, ∀ d ∈ db.queueDeadLetterMessage, d.id ≠ m.id) ∧
      ∀ m ∈ candidate, m.enqueuedAt ≤ now := by
  rw [executeDequeue, guard_eq_ok] at hok
  obtain ⟨-, hok⟩ := hok
  rw [bind_eq_ok, dequeueStatement_deleted] at hok
  obtain ⟨db', hinsert, hok⟩ := hok
  rw [bind_eq_ok] at hok
  obtain ⟨db'', hexec, -⟩ := hok
  refine ⟨fun m hm => insertDeadLetters_fresh hinsert m ?_, ?_⟩
  · exact List.mem_filter.mpr ⟨(hsel.exhausted m hm).1, by simpa using ⟨m, hm, rfl⟩⟩
  · have hframe : db'.queue = db.queue ∧ db'.queueMessage = db.queueMessage := by
      rw [insertDeadLetters, bind_eq_ok] at hinsert
      obtain ⟨rows, -, hinsert⟩ := hinsert
      simp only [guard_eq_ok, pure_eq_ok] at hinsert
      obtain ⟨-, -, -, rfl⟩ := hinsert
      exact ⟨rfl, rfl⟩
    rw [Statement.exec, guard_eq_ok] at hexec
    refine (hsel.check order receiptHandle h).mp ?_
    rw [← hexec.1]
    simp only [Statement.check, hframe]

/-- A dequeue of a message enqueued after its own time is rejected, by this constraint. -/
theorem executeDequeue_late (h : db.Valid)
    (hsel : DequeueSelection db queue now exhausted candidate)
    (hfresh : ∀ m ∈ exhausted, ∀ d ∈ db.queueDeadLetterMessage, d.id ≠ m.id)
    {m : QueueMessage} (hm : candidate = some m) (hlate : now < m.enqueuedAt) :
    executeDequeue order db queue receiptHandle now (exhausted.map (·.id))
        (candidate.map (·.id)) =
      .error (.checkViolation "queue_message_delivery_not_before_enqueue") := by
  have hperm : (db.queueMessage.filter fun m => m.id ∈ exhausted.map (·.id)).Perm exhausted :=
    filter_mem_keys_perm h.messages.ids (fun m hm => (hsel.exhausted m hm).1) hsel.nodup
  obtain ⟨stored, hinsert, -, -⟩ := insertDeadLetters_ok h
    ((List.filter_sublist.map _).nodup h.messages.ids)
    (fun m hm => hsel.exhausted m (hperm.mem_iff.mp hm))
    (fun m hm => hfresh m (hperm.mem_iff.mp hm))
  have hrejected := lease_rejected (h.messages.checked m (hsel.candidate m hm).1)
    receiptHandle (QueueRow.checked_iff.mp hsel.checked).2.2.1.1 hlate
  rw [executeDequeue, guard_eq_error, require_eq_ok]
  refine Or.inr ⟨hsel.smallint order receiptHandle h, ?_⟩
  rw [bind_eq_error, dequeueStatement_deleted]
  refine Or.inr ⟨_, hinsert, ?_⟩
  rw [bind_eq_error]
  left
  rw [Statement.exec, guard_eq_error]
  left
  rw [Statement.check, guard_eq_error]
  left
  rw [Statement.written, hsel.leased order receiptHandle h, hm]
  simp only [Option.map_some, Option.toList_some, dequeueStatement, List.append_nil, forEach,
    guard_eq_error]
  exact Or.inl hrejected

/-- Nothing else rejects a dequeue: a message that is archived already, or a late one. -/
theorem executeDequeue_error (h : db.Valid)
    (hsel : DequeueSelection db queue now exhausted candidate) {e : SqlError}
    (herror : executeDequeue order db queue receiptHandle now (exhausted.map (·.id))
      (candidate.map (·.id)) = .error e) : e ∈ dequeueRejections := by
  by_cases hfresh : ∀ m ∈ exhausted, ∀ d ∈ db.queueDeadLetterMessage, d.id ≠ m.id
  · by_cases htimely : ∀ m ∈ candidate, m.enqueuedAt ≤ now
    · obtain ⟨deleted, stored, shards, -, -, hok, -⟩ :=
        executeDequeue_ok order receiptHandle h hsel hfresh htimely
      rw [hok] at herror
      simp at herror
    · push Not at htimely
      obtain ⟨m, hm, hlate⟩ := htimely
      rw [executeDequeue_late order receiptHandle h hsel hfresh hm hlate] at herror
      injection herror with herror
      simp [dequeueRejections, ← herror]
  · push Not at hfresh
    obtain ⟨m, hm, d, hd, hid⟩ := hfresh
    have hperm : (db.queueMessage.filter fun m => m.id ∈ exhausted.map (·.id)).Perm exhausted :=
      filter_mem_keys_perm h.messages.ids (fun m hm => (hsel.exhausted m hm).1) hsel.nodup
    have hduplicate := insertDeadLetters_duplicate h
      (fun m hm => hsel.exhausted m (hperm.mem_iff.mp hm)) (hperm.mem_iff.mpr hm) hd hid
    simp only [executeDequeue, dequeueStatement_deleted, hduplicate,
      require_eq_ok.mpr (hsel.smallint order receiptHandle h)] at herror
    injection herror with herror
    simp [dequeueRejections, ← herror]

/-- A dequeue answers, or is rejected. -/
theorem executeDequeue_answers (h : db.Valid)
    (hsel : DequeueSelection db queue now exhausted candidate) :
    Answers (some queue) (settle db
      (fun row => respond .dequeueMessage (decodeDequeue receiptHandle row))
      (executeDequeue order db queue receiptHandle now (exhausted.map (·.id))
        (candidate.map (·.id)))).2 := by
  cases hexec : executeDequeue order db queue receiptHandle now (exhausted.map (·.id))
      (candidate.map (·.id)) with
  | error e => exact .rejected (by simp) (executeDequeue_error order receiptHandle h hsel hexec)
  | ok result =>
    obtain ⟨hfresh, htimely⟩ := executeDequeue_inv order receiptHandle h hsel hexec
    obtain ⟨stored, shards, outcome, hdelivers, hrun⟩ :=
      executeDequeue_delivers order receiptHandle h hsel hfresh htimely
    rw [hexec] at hrun
    rw [hrun]
    exact .answered (by simp) (by cases hdelivers <;> simp)

/-- **Dequeue**: one of the two, or a failure that changes nothing. -/
theorem executeDequeue_effect (h : db.Valid) {queues : List QueueRow} (hq : queue ∈ queues)
    (hsel : DequeueSelection db queue now exhausted candidate) :
    ∃ db' response, settle db
        (fun row => respond .dequeueMessage (decodeDequeue receiptHandle row))
        (executeDequeue order db queue receiptHandle now (exhausted.map (·.id))
          (candidate.map (·.id))) = (db', response) ∧
      Effect queues db now (.dequeueMessage queue.id receiptHandle) response db' ∧ db'.Valid := by
  cases hexec : executeDequeue order db queue receiptHandle now (exhausted.map (·.id))
      (candidate.map (·.id)) with
  | error e => exact ⟨db, _, rfl, .failed le_rfl, h⟩
  | ok result =>
    obtain ⟨hfresh, htimely⟩ := executeDequeue_inv order receiptHandle h hsel hexec
    obtain ⟨deleted, stored, shards, hperm, hstored, hok, hvalid⟩ :=
      executeDequeue_ok order receiptHandle h hsel hfresh htimely
    rw [hexec] at hok
    injection hok with hok
    subst hok
    obtain ⟨outcome, hdecode, hdelivers⟩ := decodeDequeue_ok queue receiptHandle now
      queue.visibilityTimeoutSeconds exhausted.length fun m hm =>
        ⟨h.messages.checked m (hsel.candidate m hm).1, h.payloads m (hsel.candidate m hm).1⟩
    refine ⟨_, _, rfl, ?_, hvalid⟩
    simp only [hdecode, respond]
    exact .dequeued hq hsel.checked rfl hsel.nodup hsel.exhausted
      (fun m hm => ⟨(hsel.candidate m hm).1, (hsel.candidate m hm).2, htimely m hm⟩) hperm hstored
      hdelivers

end ExecuteDequeue

/-! ## Enqueue -/

/-- **Enqueue**: a row that is new to the table is stored exactly when its constraints hold. -/
theorem executeEnqueue_eq {db : Database} (h : db.Valid) {row : QueueMessage}
    (hqueue : ∃ q ∈ db.queue, q.id = row.queueId) (hid : ∀ m ∈ db.queueMessage, m.id ≠ row.id)
    (horder : ∀ m ∈ db.queueMessage, m.enqueueOrder ≠ row.enqueueOrder) :
    (∃ e, checkRow queueMessageChecks row = .error e ∧ executeEnqueue db row = .error e) ∨
      (Checked queueMessageChecks row ∧ ∃ shards,
        executeEnqueue db row = .ok (db.withMessages (db.queueMessage ++ [row]) shards, ())) := by
  have happly : (Statement.insert [row]).apply db.queueMessage = db.queueMessage ++ [row] := by
    simp [Statement.apply, Statement.insert, applyChanges, List.filterMap_some]
  have hwritten : (Statement.insert [row]).written db.queueMessage = [row] := by
    simp [Statement.written, Statement.insert, updatedRows]
  cases hcheck : checkRow queueMessageChecks row with
  | error e =>
    refine Or.inl ⟨e, rfl, ?_⟩
    simp only [executeEnqueue, Statement.exec, Statement.check, hwritten, forEach, bind_eq_error]
    exact Or.inl (Or.inl (Or.inl (Or.inl hcheck)))
  | ok u =>
    have hchecked := checkRow_eq_ok.mp hcheck
    have hok : (Statement.insert [row]).check db = .ok () := by
      rw [Statement.check_eq_ok, happly, hwritten, List.map_append, List.map_append]
      refine ⟨by simpa using hchecked, ?_, ?_, by simpa using hqueue⟩
      · exact h.messages.ids.append (by simp) (by simpa using fun m hm => hid m hm)
      · exact h.messages.orders.append (by simp) (by simpa using fun m hm => horder m hm)
    rcases (Statement.insert [row]).exec_cases h.toRollupValid with
      ⟨e, he, -⟩ | ⟨-, shards, -, hexec, -⟩
    · rw [hok] at he
      simp at he
    · rw [happly] at hexec
      refine Or.inr ⟨hchecked, shards, ?_⟩
      rw [executeEnqueue, bind_eq_ok]
      exact ⟨_, hexec, rfl⟩

theorem executeEnqueue_effect (queues : List QueueRow) {db : Database} (h : db.Valid) (now : Int)
    (queueId : Uuid) (message : Message) (ttl : UInt32) {order : Int} (hdrawn : order < db.enqueueOrderSequence) :
    ∃ db' response, settle db (fun () => .enqueueMessage)
        (executeEnqueue db (message.row queueId ttl order now)) = (db', response) ∧
      Effect queues db now (.enqueueMessage queueId message ttl) response db' ∧ db'.Valid := by
  cases hexec : executeEnqueue db (message.row queueId ttl order now) with
  | error e => exact ⟨db, _, rfl, .failed le_rfl, h⟩
  | ok result =>
    rw [executeEnqueue, bind_eq_ok] at hexec
    obtain ⟨db', hexec, hresult⟩ := hexec
    rw [pure_eq_ok] at hresult
    subst hresult
    have happly : (Statement.insert [message.row queueId ttl order now]).apply db.queueMessage =
        db.queueMessage ++ [message.row queueId ttl order now] := by
      simp [Statement.apply, Statement.insert, applyChanges, List.filterMap_some]
    have hwritten : message.row queueId ttl order now ∈
        (Statement.insert [message.row queueId ttl order now]).written db.queueMessage := by
      simp [Statement.written, Statement.insert]
    have hvalid := h.exec hexec (by
      rw [happly]
      refine List.forall_mem_append.mpr
        ⟨fun m hm => ⟨h.drawn m hm, h.attempts m hm, h.payloads m hm⟩, ?_⟩
      simpa using ⟨hdrawn, show (0 : Int) ≤ 100 by decide, message.payload, rfl⟩)
    obtain ⟨-, hcheck, shards, rfl⟩ := Statement.exec_valid h.toRollupValid hexec
    rw [happly] at hvalid
    obtain ⟨hchecked, hids, -, hqueue⟩ := Statement.check_eq_ok.mp hcheck
    rw [happly, List.map_append] at hids
    rw [happly]
    refine ⟨_, _, rfl, ?_, hvalid⟩
    refine .enqueued (hqueue _ hwritten) (fun m hm hid => ?_) (hchecked _ hwritten) le_rfl
    exact (List.nodup_append.mp hids).2.2 m.id (List.mem_map_of_mem hm) message.id
      (List.mem_singleton.mpr rfl) hid

/-! ## Queues -/

theorem createQueue_effect (queues : List QueueRow) {db : Database} (h : db.Valid) (now : Int)
    (queue : Queue) :
    Effect queues db now (.createQueue queue) (createQueue db now queue).2
        (createQueue db now queue).1 ∧
      (createQueue db now queue).1.Valid := by
  cases hrow : queue.row now with
  | error e =>
    simp only [createQueue, hrow]
    exact ⟨.failed le_rfl, h⟩
  | ok row =>
    cases hinsert : insertQueue db row with
    | error e =>
      simp only [createQueue, hrow, hinsert, settle]
      exact ⟨.failed le_rfl, h⟩
    | ok result =>
      simp only [createQueue, hrow, hinsert, settle]
      rw [insertQueue, guard_eq_ok, checkRow_eq_ok] at hinsert
      obtain ⟨hchecked, hinsert⟩ := hinsert
      split at hinsert
      · rw [pure_eq_ok] at hinsert
        subst hinsert
        exact ⟨.alreadyExists, h⟩
      · rename_i hname
        simp only [guard_eq_ok, require_eq_ok, pure_eq_ok, queueExists_iff, not_exists, not_and]
          at hinsert
        obtain ⟨hid, rfl⟩ := hinsert
        simp only [List.any_eq_true, decide_eq_true_eq, not_exists, not_and] at hname
        refine ⟨.created hrow hid hname, h.withQueue ?_ ?_ ?_ ?_⟩
        · rw [List.map_append]
          exact h.queueIds.append (by simp) (by simpa using hid)
        · rw [List.map_append]
          exact h.queueNames.append (by simp) (by simpa using hname)
        · exact List.forall_mem_append.mpr ⟨h.queueChecked, by simpa using hchecked⟩
        · exact fun q hq => ⟨q, List.mem_append_left _ hq, rfl⟩

/-- A row that satisfies its constraints decodes. -/
theorem queueDetailsFromRow_ok {row : QueueRow} (hchecked : Checked queueChecks row) :
    ∃ details, queueDetailsFromRow row = .ok details := by
  obtain ⟨-, -, hvisibility, hattempts, httl, -⟩ := QueueRow.checked_iff.mp hchecked
  have hv : 0 ≤ row.visibilityTimeoutSeconds := by omega
  have ha : 0 ≤ row.maxDeliveryAttempts := by omega
  have ht : 0 ≤ row.defaultMessageTtlSeconds := by omega
  simp [queueDetailsFromRow, tryFromSigned, bind, Except.bind, pure, Except.pure, hv, ha, ht]

theorem updateQueue_effect (queues : List QueueRow) {db : Database} (h : db.Valid) (now : Int)
    (queueId : Uuid) (configuration : QueueConfigurationUpdate) :
    Effect queues db now (.updateQueue queueId configuration)
        (updateQueue db now queueId configuration).2
        (updateQueue db now queueId configuration).1 ∧
      (updateQueue db now queueId configuration).1.Valid := by
  cases hparameters : configuration.parameters with
  | error e =>
    simp only [updateQueue, hparameters]
    exact ⟨.failed le_rfl, h⟩
  | ok parameters =>
    obtain ⟨visibility, attempts, ttl⟩ := parameters
    cases hfind : db.queue.find? (fun q => q.id = queueId) with
    | none =>
      simp only [updateQueue, hparameters, configureQueue, hfind, settle, pure, Except.pure]
      exact ⟨.notConfigured (find?_key_eq_none.mp hfind), h⟩
    | some row =>
      obtain ⟨hrow, hrowid⟩ := (find?_key_eq_some h.queueIds).mp hfind
      cases hcheck : checkRow queueChecks (row.configure now visibility attempts ttl) with
      | error e =>
        simp only [updateQueue, hparameters, configureQueue, hfind, hcheck, settle, bind,
          Except.bind]
        exact ⟨.failed le_rfl, h⟩
      | ok u =>
        have hchecked := checkRow_eq_ok.mp hcheck
        obtain ⟨details, hdetails⟩ := queueDetailsFromRow_ok hchecked
        simp only [updateQueue, hparameters, configureQueue, hfind, hcheck, settle, bind,
          Except.bind, pure, Except.pure, Option.mapM, hdetails, respond]
        have hcolumn {γ : Type} (f : QueueRow → γ)
            (hf : f (row.configure now visibility attempts ttl) = f row) :
            (db.queue.map fun q => if q.id = queueId then
              row.configure now visibility attempts ttl else q).map f = db.queue.map f :=
          hrowid ▸ map_replace h.queueIds hrow hf
        refine ⟨.configured hrow hrowid rfl rfl hchecked, h.withQueue
          (hcolumn (·.id) rfl ▸ h.queueIds) (hcolumn (·.name) rfl ▸ h.queueNames) ?_ ?_⟩
        · intro q hq
          obtain ⟨q', hq', rfl⟩ := List.mem_map.mp hq
          split
          · exact hchecked
          · exact h.queueChecked q' hq'
        · intro q hq
          refine ⟨_, List.mem_map_of_mem hq, ?_⟩
          split
          · rename_i hid
            exact hrowid.trans hid.symm
          · rfl

/-! ## Operations -/

/-- The selection of an operation that runs alone. -/
theorem dequeueSelection {db : Database} (h : db.Valid) {queue : QueueRow} (hq : queue ∈ db.queue)
    (now : Int) : DequeueSelection db queue now
      ((deadLetterCandidates db queue now).take dequeueDeadLetterBatchSize)
      (deliveryCandidates db queue now).head? where
  checked := h.queueChecked queue hq
  nodup := by
    refine (List.take_sublist _ _).nodup ((orderBy_perm _ _).nodup_iff.mpr ?_)
    exact (List.Nodup.of_map _ h.messages.ids).filter _
  exhausted m hm := List.mem_filter.mp (mem_of_mem_take_orderBy hm)
  candidate m hm := List.mem_filter.mp (head?_orderBy_eq_some hm).1

theorem enqueueMessage_effect {db : Database} (h : db.Valid) (now : Int) (queueId : Uuid)
    (message : Message) (ttl : UInt32) :
    Effect db.queue db now (.enqueueMessage queueId message ttl)
        (enqueueMessage db now queueId message ttl).2
        (enqueueMessage db now queueId message ttl).1 ∧
      (enqueueMessage db now queueId message ttl).1.Valid := by
  have hnext : db.enqueueOrderSequence ≤ db.enqueueOrderSequence + 1 := Int.le.intro 1 rfl
  obtain ⟨db', response, hrun, heffect, hvalid⟩ := executeEnqueue_effect db.queue (h.draw hnext)
    now queueId message ttl (Int.lt_succ db.enqueueOrderSequence)
  have hrun' : enqueueMessage db now queueId message ttl = (db', response) := hrun
  rw [hrun']
  refine ⟨?_, hvalid⟩
  cases heffect with
  | failed hseq => exact .failed (hnext.trans hseq)
  | enqueued hqueue hid hchecked hseq => exact .enqueued hqueue hid hchecked (hnext.trans hseq)

theorem dequeueMessage_effect {db : Database} (h : db.Valid) (order : TriggerOrder) (now : Int)
    (queueId receiptHandle : Uuid) :
    Effect db.queue db now (.dequeueMessage queueId receiptHandle)
        (dequeueMessage order db now queueId receiptHandle).2
        (dequeueMessage order db now queueId receiptHandle).1 ∧
      (dequeueMessage order db now queueId receiptHandle).1.Valid := by
  cases hfind : targetQueue db queueId with
  | none =>
    simp only [dequeueMessage, hfind]
    exact ⟨.queueNotFound, h⟩
  | some queue =>
    obtain ⟨hq, rfl⟩ := h.find_queue.mp hfind
    obtain ⟨db', response, hrun, heffect, hvalid⟩ := executeDequeue_effect order receiptHandle h hq
      (dequeueSelection h hq now)
    simp only [dequeueMessage, hfind, hrun]
    exact ⟨heffect, hvalid⟩

/-- What a dequeue that runs alone answers. -/
theorem dequeueMessage_answers {db : Database} (h : db.Valid) (order : TriggerOrder) (now : Int)
    (queueId receiptHandle : Uuid) :
    Answers (targetQueue db queueId) (dequeueMessage order db now queueId receiptHandle).2 := by
  cases hfind : targetQueue db queueId with
  | none =>
    simp only [dequeueMessage, hfind]
    exact .notFound rfl
  | some queue =>
    obtain ⟨hq, rfl⟩ := h.find_queue.mp hfind
    simp only [dequeueMessage, hfind]
    exact executeDequeue_answers order receiptHandle h (dequeueSelection h hq now)

/-- **Dequeue, running alone**: on an existing queue, with no message both live and archived and
    none enqueued in the future, it succeeds, archives the exhausted messages it has selected
    and delivers the first deliverable one. -/
theorem dequeueMessage_eq {db : Database} (h : db.Valid) (order : TriggerOrder) {now : Int}
    {queueId : Uuid} (receiptHandle : Uuid) {queue : QueueRow}
    (hfind : targetQueue db queueId = some queue)
    (hdisjoint : ∀ m ∈ db.queueMessage, ∀ d ∈ db.queueDeadLetterMessage, d.id ≠ m.id)
    (htimely : ∀ m ∈ db.queueMessage, m.enqueuedAt ≤ now) :
    ∃ stored shards outcome,
      Delivers queue.name receiptHandle
        ((deadLetterCandidates db queue now).take dequeueDeadLetterBatchSize).length
        (deliveryCandidates db queue now).head? outcome ∧
      dequeueMessage order db now queueId receiptHandle =
        ({ db with
          queueMessage := dequeuedMessages receiptHandle now queue.visibilityTimeoutSeconds
            (((deadLetterCandidates db queue now).take dequeueDeadLetterBatchSize).map (·.id))
            ((deliveryCandidates db queue now).head?.map (·.id)) db.queueMessage
          queueDeadLetterMessage := db.queueDeadLetterMessage ++ stored
          queuePriorityStateShard := shards }, .dequeueMessage outcome) := by
  obtain ⟨hq, -⟩ := h.find_queue.mp hfind
  have hsel := dequeueSelection h hq now
  simp only [dequeueMessage, hfind]
  exact executeDequeue_delivers order receiptHandle h hsel
    (fun m hm => hdisjoint m (hsel.exhausted m hm).1)
    (fun m hm => htimely m (hsel.candidate m hm).1)

theorem acknowledgeMessage_effect {db : Database} (h : db.Valid) (now : Int)
    (queueId messageId receiptHandle : Uuid) :
    Effect db.queue db now (.acknowledgeMessage queueId messageId receiptHandle)
        (acknowledgeMessage db now queueId messageId receiptHandle).2
        (acknowledgeMessage db now queueId messageId receiptHandle).1 ∧
      (acknowledgeMessage db now queueId messageId receiptHandle).1.Valid := by
  obtain ⟨db', response, hrun, -, heffect, hvalid⟩ := executeAcknowledge_effect db.queue h
    now queueId messageId receiptHandle ((List.Nodup.of_map _ h.messages.ids).filter _)
    fun m hm => List.mem_filter.mp hm
  simp only [acknowledgeMessage, hrun]
  exact ⟨heffect, hvalid⟩

theorem processExpiredMessages_effect {db : Database} (h : db.Valid) (now : Int)
    (batchSize : UInt32) :
    ∃ summary, (processExpiredMessages db now batchSize).2 = .processExpiredMessages summary ∧
      Effect db.queue db now (.processExpiredMessages batchSize) (.processExpiredMessages summary)
        (processExpiredMessages db now batchSize).1 ∧
      (processExpiredMessages db now batchSize).1.Valid := by
  have hexpired : ∀ m ∈ (expiredCandidates db now).take batchSize.toNat,
      m ∈ db.queueMessage ∧ isExpired now m :=
    fun m hm => List.mem_filter.mp (mem_of_mem_take_orderBy hm)
  obtain ⟨db', summary, hrun, heffect, hvalid⟩ :=
    executeExpired_effect db.queue h now batchSize hexpired
  simp only [processExpiredMessages, hrun]
  exact ⟨summary, rfl, heffect, hvalid⟩

theorem purgeDeadLetterMessages_effect {db : Database} (h : db.Valid) (now retentionSeconds : Int)
    (batchSize : UInt32) :
    ∃ summary, (purgeDeadLetterMessages db now retentionSeconds batchSize).2 =
        .purgeDeadLetterMessages summary ∧
      Effect db.queue db now (.purgeDeadLetterMessages retentionSeconds batchSize)
        (.purgeDeadLetterMessages summary)
        (purgeDeadLetterMessages db now retentionSeconds batchSize).1 ∧
      (purgeDeadLetterMessages db now retentionSeconds batchSize).1.Valid :=
  executePurge_effect db.queue h now batchSize
    fun _ hd => List.mem_filter.mp (mem_of_mem_take_orderBy hd)

/-- **Every operation has one of the effects**, and keeps the database valid. -/
theorem Operation.run_effect {db : Database} (h : db.Valid) (order : TriggerOrder) (now : Int)
    (op : Operation) :
    Effect db.queue db now op (op.run order db now).2 (op.run order db now).1 ∧
      (op.run order db now).1.Valid := by
  cases op with
  | createQueue queue => exact createQueue_effect db.queue h now queue
  | updateQueue queueId configuration => exact updateQueue_effect db.queue h now queueId configuration
  | enqueueMessage queueId message ttl => exact enqueueMessage_effect h now queueId message ttl
  | dequeueMessage queueId receiptHandle =>
    exact dequeueMessage_effect h order now queueId receiptHandle
  | acknowledgeMessage queueId messageId receiptHandle =>
    exact acknowledgeMessage_effect h now queueId messageId receiptHandle
  | processExpiredMessages batchSize =>
    obtain ⟨summary, hresponse, heffect, hvalid⟩ := processExpiredMessages_effect h now batchSize
    simp only [Operation.run, hresponse]
    exact ⟨heffect, hvalid⟩
  | purgeDeadLetterMessages retentionSeconds batchSize =>
    obtain ⟨summary, hresponse, heffect, hvalid⟩ :=
      purgeDeadLetterMessages_effect h now retentionSeconds batchSize
    simp only [Operation.run, hresponse]
    exact ⟨heffect, hvalid⟩

end Retsu
