/-
  Where rows come from and where they go.

  Read off `Effect`, row by row: a message row after an operation was there before, has just
  been enqueued, or is a lease of a row that was there (`Effect.origin`); a message that is
  gone was acknowledged, archived or expired (`Effect.exit`); an archived row was archived by
  this operation or was there before, and only a purge removes it.
-/
import Retsu.Effect

namespace Retsu

open Relational

variable {queues : List QueueRow} {db db' : Database} {now : Int} {op : Operation} {response : Response}

/-! ## Message rows -/

/-- Where a row of the message table comes from. -/
inductive RowOrigin (queues : List QueueRow) (db : Database) (now : Int) :
    Operation → Response → QueueMessage → Prop
  | kept {op : Operation} {response : Response} {m : QueueMessage} (hm : m ∈ db.queueMessage) :
      RowOrigin queues db now op response m
  | enqueued {queueId : Uuid} {message : Message} {ttl : UInt32} {order : Int}
      (hid : ∀ m ∈ db.queueMessage, m.id ≠ message.id) :
      RowOrigin queues db now (.enqueueMessage queueId message ttl) .enqueueMessage
        (message.row queueId ttl order now)
  | leased {queue : QueueRow} {receiptHandle : Uuid} {m : QueueMessage} {deadLettered : Nat}
      {outcome : DequeueMessageOutcome} (hqueue : queue ∈ queues)
      (hchecked : Checked queueChecks queue) (hm : m ∈ db.queueMessage)
      (hcandidate : isCandidate queue now m)
      (htimely : m.enqueuedAt ≤ now)
      (houtcome : Delivers queue.name receiptHandle deadLettered (some m) outcome) :
      RowOrigin queues db now (.dequeueMessage queue.id receiptHandle) (.dequeueMessage outcome)
        (m.lease receiptHandle now queue.visibilityTimeoutSeconds)

/-- How a message leaves the message table. -/
inductive RowExit (queues : List QueueRow) (now : Int) (db' : Database) :
    Operation → Response → QueueMessage → Prop
  | acknowledged {queueId messageId receiptHandle : Uuid} {m : QueueMessage}
      (hack : isAcknowledgeable queueId messageId receiptHandle now m) :
      RowExit queues now db' (.acknowledgeMessage queueId messageId receiptHandle)
        (.acknowledgeMessage .acknowledged) m
  | deadLettered {queue : QueueRow} {receiptHandle : Uuid} {m : QueueMessage}
      {d : QueueDeadLetterMessage} {outcome : DequeueMessageOutcome} (hqueue : queue ∈ queues)
      (hexhausted : isDeadLetterCandidate queue now m) (hd : m.deadLetter now = .ok d)
      (hstored : d ∈ db'.queueDeadLetterMessage) :
      RowExit queues now db' (.dequeueMessage queue.id receiptHandle) (.dequeueMessage outcome) m
  | expired {batchSize : UInt32} {summary : ExpiredMessagesCleanupSummary} {m : QueueMessage}
      (hexpired : isExpired now m) :
      RowExit queues now db' (.processExpiredMessages batchSize) (.processExpiredMessages summary) m

/-- **Every row has an origin.** -/
theorem Effect.origin (h : db.Valid) (heffect : Effect queues db now op response db')
    {m' : QueueMessage} (hm' : m' ∈ db'.queueMessage) : RowOrigin queues db now op response m' := by
  cases heffect with
  | failed | alreadyExists | created | notConfigured | configured | queueNotFound | unchanged
  | purged => exact .kept hm'
  | enqueued hqueue hid hchecked hseq =>
    rcases List.mem_append.mp hm' with hm' | hm'
    · exact .kept hm'
    · rw [List.mem_singleton.mp hm']
      exact .enqueued hid
  | acknowledged hm hack => exact .kept (List.mem_filter.mp hm').1
  | expired hexpired hsummary => exact .kept (List.mem_filter.mp hm').1
  | @dequeued _ _ queue exhausted deleted candidate stored outcome shards hqueue hchecked hid
      hnodup hexhausted hcandidate hdeleted hstored houtcome =>
    obtain ⟨m, hm, -, rfl⟩ := mem_dequeuedMessages.mp hm'
    subst hid
    split
    · rename_i hc
      obtain ⟨c, rfl, hcid⟩ := Option.map_eq_some_iff.mp hc
      obtain ⟨hcdb, hcand, htime⟩ := hcandidate c rfl
      have heq := eq_of_key_eq h.messages.ids hcdb hm hcid
      subst heq
      exact .leased hqueue hchecked hm hcand htime houtcome
    · exact .kept hm

/-- **A message that is gone left in one of three ways.** -/
theorem Effect.exit (h : db.Valid) (heffect : Effect queues db now op response db') {m : QueueMessage}
    (hm : m ∈ db.queueMessage) (hgone : ∀ m' ∈ db'.queueMessage, m'.id ≠ m.id) :
    RowExit queues now db' op response m := by
  cases heffect with
  | failed | alreadyExists | created | notConfigured | configured | queueNotFound | unchanged
  | purged => exact absurd rfl (hgone m hm)
  | enqueued => exact absurd rfl (hgone m (List.mem_append_left _ hm))
  | @acknowledged _ messageId _ r _ hr hack =>
    have hid : m.id = messageId := by
      by_contra hne
      exact hgone m (List.mem_filter.mpr ⟨hm, by simpa using hne⟩) rfl
    have hack' := hack
    simp only [isAcknowledgeable, decide_eq_true_eq] at hack'
    rw [eq_of_key_eq h.messages.ids hm hr (hid.trans hack'.1.symm)]
    exact .acknowledged hack
  | @expired _ expired _ _ hexpired hsummary =>
    have hid : m.id ∈ expired.map (·.id) := by
      by_contra hne
      exact hgone m (List.mem_filter.mpr ⟨hm, by simpa using hne⟩) rfl
    exact .expired (of_key_mem h.messages.ids hexpired hm hid)
  | @dequeued _ receiptHandle queue exhausted deleted candidate stored outcome shards hqueue hchecked
      hid hnodup hexhausted hcandidate hdeleted hstored houtcome =>
    have hmem : m.id ∈ exhausted.map (·.id) := by
      by_contra hne
      refine hgone _ (mem_dequeuedMessages.mpr ⟨m, hm, hne, rfl⟩) ?_
      split <;> rfl
    obtain ⟨e, he, heid⟩ := List.mem_map.mp hmem
    obtain ⟨hedb, hexh⟩ := hexhausted e he
    obtain rfl := eq_of_key_eq h.messages.ids hedb hm heid
    subst hid
    obtain ⟨d, hd, hstored⟩ := mem_left_of_forall₂ hstored (hdeleted.mem_iff.mpr he)
    exact .deadLettered hqueue hexh hstored (List.mem_append_right _ hd)

/-! ## Archived rows -/

/-- Where a row of the dead-letter table comes from. -/
inductive DeadLetterOrigin (queues : List QueueRow) (db db' : Database) (now : Int) :
    Operation → Response → QueueDeadLetterMessage → Prop
  | kept {op : Operation} {response : Response} {d : QueueDeadLetterMessage}
      (hd : d ∈ db.queueDeadLetterMessage) : DeadLetterOrigin queues db db' now op response d
  | deadLettered {queue : QueueRow} {receiptHandle : Uuid} {m : QueueMessage}
      {d : QueueDeadLetterMessage} {outcome : DequeueMessageOutcome} (hqueue : queue ∈ queues)
      (hm : m ∈ db.queueMessage)
      (hexhausted : isDeadLetterCandidate queue now m) (hd : m.deadLetter now = .ok d)
      (hgone : ∀ m' ∈ db'.queueMessage, m'.id ≠ m.id) :
      DeadLetterOrigin queues db db' now (.dequeueMessage queue.id receiptHandle)
        (.dequeueMessage outcome) d

theorem Effect.deadLetter_origin (heffect : Effect queues db now op response db')
    {d : QueueDeadLetterMessage} (hd : d ∈ db'.queueDeadLetterMessage) :
    DeadLetterOrigin queues db db' now op response d := by
  cases heffect with
  | failed | alreadyExists | created | notConfigured | configured | queueNotFound | unchanged
  | enqueued | acknowledged | expired => exact .kept hd
  | purged => exact .kept (List.mem_filter.mp hd).1
  | @dequeued _ _ queue exhausted deleted candidate stored outcome shards hqueue hchecked hid
      hnodup hexhausted hcandidate hdeleted hstored houtcome =>
    rcases List.mem_append.mp hd with hd | hd
    · exact .kept hd
    · subst hid
      obtain ⟨e, he, hstored⟩ := mem_right_of_forall₂ hstored hd
      have hmem := hdeleted.mem_iff.mp he
      obtain ⟨hmdb, hexh⟩ := hexhausted _ hmem
      refine .deadLettered hqueue hmdb hexh hstored fun m' hm' => ?_
      obtain ⟨r, -, hr, rfl⟩ := mem_dequeuedMessages.mp hm'
      intro hid
      refine hr ?_
      rw [show r.id = e.id by rw [← hid]; split <;> rfl]
      exact List.mem_map_of_mem hmem

/-- Only a purge removes an archived row, and only one that is old enough. -/
theorem Effect.deadLetter_exit (h : db.Valid) (heffect : Effect queues db now op response db')
    {d : QueueDeadLetterMessage} (hd : d ∈ db.queueDeadLetterMessage)
    (hgone : d ∉ db'.queueDeadLetterMessage) :
    ∃ retentionSeconds batchSize summary,
      op = .purgeDeadLetterMessages retentionSeconds batchSize ∧
      response = .purgeDeadLetterMessages summary ∧ isPurgeable retentionSeconds now d := by
  cases heffect with
  | failed | alreadyExists | created | notConfigured | configured | queueNotFound | unchanged
  | enqueued | acknowledged | expired => exact absurd hd hgone
  | dequeued => exact absurd (List.mem_append_left _ hd) hgone
  | @purged retentionSeconds batchSize purged summary hpurged hsummary =>
    have hid : d.id ∈ purged.map (·.id) := by
      by_contra hne
      exact hgone (List.mem_filter.mpr ⟨hd, by simpa using hne⟩)
    obtain ⟨p, hp, hpid⟩ := List.mem_map.mp hid
    obtain ⟨hpdb, hpurge⟩ := hpurged p hp
    rw [eq_of_key_eq h.deadLetterIds hpdb hd hpid] at hpurge
    exact ⟨retentionSeconds, batchSize, summary, rfl, rfl, hpurge⟩

/-! ## Invariants -/

/-- The message id an operation brings along. -/
def Operation.enqueuedId : Operation → Option Uuid
  | enqueueMessage _ message _ => some message.id
  | _ => none

/-- The receipt handle an operation brings along. -/
def Operation.drawnHandle : Operation → Option Uuid
  | dequeueMessage _ receiptHandle => some receiptHandle
  | _ => none

/-- Only an enqueue adds a message id. -/
theorem Effect.message_id (h : db.Valid) (heffect : Effect queues db now op response db')
    {m' : QueueMessage} (hm' : m' ∈ db'.queueMessage) :
    op.enqueuedId = some m'.id ∨ ∃ m ∈ db.queueMessage, m.id = m'.id := by
  cases heffect.origin h hm' with
  | kept hm => exact Or.inr ⟨m', hm, rfl⟩
  | enqueued => exact Or.inl rfl
  | leased _ _ hm => exact Or.inr ⟨_, hm, rfl⟩

/-- An archived message was live. -/
theorem Effect.deadLetter_id (heffect : Effect queues db now op response db')
    {d : QueueDeadLetterMessage} (hd : d ∈ db'.queueDeadLetterMessage) :
    d ∈ db.queueDeadLetterMessage ∨ ∃ m ∈ db.queueMessage, m.id = d.id := by
  cases heffect.deadLetter_origin hd with
  | kept hd => exact Or.inl hd
  | deadLettered _ hm _ hdead =>
    obtain ⟨delivered, -, rfl⟩ := deadLetter_eq_ok.mp hdead
    exact Or.inr ⟨_, hm, rfl⟩

/-- Only a dequeue gives out a receipt handle. -/
theorem Effect.receiptHandle (h : db.Valid) (heffect : Effect queues db now op response db')
    {m' : QueueMessage} (hm' : m' ∈ db'.queueMessage) {receiptHandle : Uuid}
    (hhandle : m'.receiptHandle = some receiptHandle) :
    op.drawnHandle = some receiptHandle ∨ m' ∈ db.queueMessage := by
  cases heffect.origin h hm' with
  | kept hm => exact Or.inr hm
  | enqueued => simp [Message.row] at hhandle
  | leased => exact Or.inl hhandle

/-- A message was enqueued before, or right now. -/
theorem Effect.enqueuedAt (h : db.Valid) (heffect : Effect queues db now op response db')
    {m' : QueueMessage} (hm' : m' ∈ db'.queueMessage) :
    m'.enqueuedAt = now ∨ ∃ m ∈ db.queueMessage, m.enqueuedAt = m'.enqueuedAt := by
  cases heffect.origin h hm' with
  | kept hm => exact Or.inr ⟨m', hm, rfl⟩
  | enqueued => exact Or.inl rfl
  | leased _ _ hm => exact Or.inr ⟨_, hm, rfl⟩

/-- **No message is ever live and archived at once**, if enqueues bring new ids. -/
theorem Effect.disjoint (h : db.Valid) (heffect : Effect queues db now op response db')
    (hdisjoint : ∀ m ∈ db.queueMessage, ∀ d ∈ db.queueDeadLetterMessage, d.id ≠ m.id)
    (hfresh : ∀ id ∈ op.enqueuedId, ∀ d ∈ db.queueDeadLetterMessage, d.id ≠ id) :
    ∀ m ∈ db'.queueMessage, ∀ d ∈ db'.queueDeadLetterMessage, d.id ≠ m.id := by
  intro m' hm' d hd
  have horigin := heffect.origin h hm'
  cases heffect.deadLetter_origin hd with
  | kept hd =>
    cases horigin with
    | kept hm => exact hdisjoint m' hm d hd
    | enqueued => exact hfresh _ rfl d hd
    | leased _ _ hm => exact hdisjoint _ hm d hd
  | deadLettered _ _ _ hdead hgone =>
    obtain ⟨delivered, -, rfl⟩ := deadLetter_eq_ok.mp hdead
    exact (hgone m' hm').symm

/-- The sequence does not run backwards. -/
theorem Effect.sequence_le (heffect : Effect queues db now op response db') :
    db.enqueueOrderSequence ≤ db'.enqueueOrderSequence := by
  cases heffect with
  | failed hseq => exact hseq
  | enqueued _ _ _ hseq => exact hseq
  | _ => exact le_rfl

/-! ## Deliveries -/

/-- The message an operation has delivered. -/
def Response.delivered : Response → Option Uuid
  | .dequeueMessage (.dequeued id _ _ _ _ _ _) => some id
  | _ => none

/-- What is delivered is what was leased. -/
theorem Delivers.delivered {queueName : String} {receiptHandle : Uuid} {deadLettered : Nat}
    {candidate : Option QueueMessage} {outcome : DequeueMessageOutcome}
    (h : Delivers queueName receiptHandle deadLettered candidate outcome) :
    (Response.dequeueMessage outcome).delivered = candidate.map (·.id) := by
  cases h <;> rfl

/-- A delivery is a lease, which is what the message table holds afterwards. -/
theorem Effect.delivered (h : db.Valid) (heffect : Effect queues db now op response db') {id : Uuid}
    (hid : response.delivered = some id) :
    ∃ queue receiptHandle m, op = .dequeueMessage queue.id receiptHandle ∧
      queue ∈ queues ∧ Checked queueChecks queue ∧ m ∈ db.queueMessage ∧ m.id = id ∧
      isCandidate queue now m ∧ m.enqueuedAt ≤ now ∧
      m.lease receiptHandle now queue.visibilityTimeoutSeconds ∈ db'.queueMessage := by
  cases heffect with
  | failed | alreadyExists | created | notConfigured | configured | queueNotFound | unchanged
  | enqueued | acknowledged | expired | purged => simp [Response.delivered] at hid
  | @dequeued _ receiptHandle queue exhausted deleted candidate stored outcome shards hqueue hchecked
      hqid hnodup hexhausted hcandidate hdeleted hstored houtcome =>
    cases houtcome with
    | empty => simp [Response.delivered] at hid
    | @dequeued m payload priority hpayload hpriority =>
      obtain ⟨hm, hcand, htime⟩ := hcandidate m rfl
      refine ⟨queue, receiptHandle, m, by rw [hqid], hqueue, hchecked, hm,
        by simpa [Response.delivered] using hid, hcand, htime,
        mem_dequeuedMessages.mpr ⟨m, hm, fun hmem => ?_, by simp⟩⟩
      exact not_isDeadLetterCandidate hcand (of_key_mem h.messages.ids hexhausted hm hmem)

/-- What a dequeue answers with when it has delivered a message. -/
theorem Effect.delivery (heffect : Effect queues db now op response db') {id : Uuid}
    (hid : response.delivered = some id) :
    ∃ queue receiptHandle m payload priority deadLettered,
      op = .dequeueMessage queue.id receiptHandle ∧ queue ∈ queues ∧ m ∈ db.queueMessage ∧
      m.id = id ∧ isCandidate queue now m ∧ m.payload = payload.toByteArray ∧
      m.priority = priority.rank ∧ response = .dequeueMessage (.dequeued id payload priority
        receiptHandle (m.deliveryAttempts + 1).toNat queue.name deadLettered) := by
  cases heffect with
  | failed | alreadyExists | created | notConfigured | configured | queueNotFound | unchanged
  | enqueued | acknowledged | expired | purged => simp [Response.delivered] at hid
  | @dequeued _ receiptHandle queue _ _ candidate _ _ _ hqueue _ hqid _ _ hcandidate _ _ houtcome =>
    cases houtcome with
    | empty => simp [Response.delivered] at hid
    | @dequeued m payload priority hpayload hpriority =>
      obtain ⟨hm, hcand, -⟩ := hcandidate m rfl
      obtain rfl := Option.some.inj hid
      exact ⟨queue, receiptHandle, m, payload, priority, _, by rw [hqid], hqueue, hm, rfl, hcand,
        hpayload, hpriority, rfl⟩

/-! ## Queue rows -/

/-- Queues are never removed or renamed. -/
theorem Effect.queue_kept (h : db.Valid) (heffect : Effect queues db now op response db') :
    ∀ q ∈ db.queue, ∃ q' ∈ db'.queue, q'.id = q.id ∧ q'.name = q.name := by
  intro q hq
  cases heffect with
  | created => exact ⟨q, List.mem_append_left _ hq, rfl, rfl⟩
  | configured hrow hrowid hid hname =>
    refine ⟨_, List.mem_map_of_mem hq, ?_⟩
    split
    · rename_i hqid
      rw [eq_of_key_eq h.queueIds hq hrow (hqid.trans hrowid.symm)]
      exact ⟨hid, hname⟩
    · exact ⟨rfl, rfl⟩
  | _ => exact ⟨q, hq, rfl, rfl⟩

end Retsu
