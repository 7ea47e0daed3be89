/-
  The service is a message store.

  The tables realize a `MessageStore`, each transaction does at its commit what the store allows,
  and the log has the transactions in the order of their commits.  So the service is linearizable:
  whatever its clients are answered, a store that does one operation after the other could have
  answered, in an order that agrees with the times at which they asked and were answered.
-/
import Retsu.Concurrency.Linearizability
import Retsu.MessageStore
import Retsu.Overtaking
import Retsu.ServiceInvariant
import Retsu.Trace
import Retsu.Validation

namespace Retsu

open Relational Concurrency UseCases

variable {order : TriggerOrder}

/-! ## Tables -/

def QueueRow.limits (q : QueueRow) : QueueLimits where
  visibilityTimeoutSeconds := q.visibilityTimeoutSeconds
  maxDeliveryAttempts := q.maxDeliveryAttempts
  defaultMessageTtlSeconds := q.defaultMessageTtlSeconds

def QueueMessage.availability (m : QueueMessage) : Availability :=
  match m.receiptHandle with
  | none => .ready
  | some receiptHandle => .leased receiptHandle m.availableAfter

def QueueMessage.stored (m : QueueMessage) : LiveMessage :=
  ⟨m.header, m.deliveryAttempts, m.availability⟩

def QueueDeadLetterMessage.stored (d : QueueDeadLetterMessage) : ArchivedMessage :=
  ⟨d.header, d.deliveryAttempts, d.deadLetteredAt⟩

/-- The tables have what the store has; what queues have been before is in no table. -/
structure Database.Realizes (db : Database) (store : MessageStore) : Prop where
  queues : ∀ id, (store.queues id).map (fun q => (q.name, q.limits)) =
    (lookup (·.id) db.queue id).map fun q => (q.name, q.limits)
  live : ∀ id, store.live id = (lookup (·.id) db.queueMessage id).map (·.stored)
  archived : ∀ id, store.archived id = (lookup (·.id) db.queueDeadLetterMessage id).map (·.stored)

namespace Database.Realizes

variable {db : Database} {store : MessageStore}

theorem message (h : db.Realizes store) (hvalid : db.Valid) {m : QueueMessage}
    (hm : m ∈ db.queueMessage) : store.live m.id = some m.stored := by
  rw [h.live, lookup_self hvalid.messages.ids hm]
  rfl

theorem deadLetter (h : db.Realizes store) (hvalid : db.Valid) {d : QueueDeadLetterMessage}
    (hd : d ∈ db.queueDeadLetterMessage) : store.archived d.id = some d.stored := by
  rw [h.archived, lookup_self hvalid.deadLetterIds hd]
  rfl

theorem queue (h : db.Realizes store) (hvalid : db.Valid) {q : QueueRow} (hq : q ∈ db.queue) :
    ∃ stored, store.queues q.id = some stored ∧ stored.name = q.name ∧ stored.limits = q.limits := by
  have hqueue := h.queues q.id
  rw [lookup_self hvalid.queueIds hq, Option.map_some] at hqueue
  obtain ⟨stored, hstored, heq⟩ := Option.map_eq_some_iff.mp hqueue
  exact ⟨stored, hstored, (Prod.mk.inj heq).1, (Prod.mk.inj heq).2⟩

theorem no_queue (h : db.Realizes store) {id : Uuid} (hid : ∀ q ∈ db.queue, q.id ≠ id) :
    store.queues id = none := by
  have hqueue := h.queues id
  rw [lookup_eq_none.mpr hid] at hqueue
  exact Option.map_eq_none_iff.mp hqueue

end Database.Realizes

/-- A message is free if it is ready or its lease has ended. -/
theorem QueueMessage.freeAt_iff {m : QueueMessage} (h : Checked queueMessageChecks m) {now : Int} :
    m.availability.FreeAt now ↔ m.state = .ready ∨ m.availableAfter ≤ now := by
  unfold QueueMessage.availability
  rcases (QueueMessage.checked_iff.mp h).2.2.2.1 with ⟨hstate, hhandle, -⟩ | ⟨hstate, hhandle, -⟩
  · rw [hhandle]
    simp [Availability.FreeAt, hstate]
  · obtain ⟨receiptHandle, hhandle⟩ := Option.ne_none_iff_exists'.mp hhandle
    rw [hhandle]
    simp [Availability.FreeAt, hstate]

theorem QueueMessage.deliverable {m : QueueMessage} (h : Checked queueMessageChecks m)
    {queue : QueueRow} {now : Int} (hcandidate : isCandidate queue now m) :
    m.stored.Deliverable queue.id queue.limits now := by
  simp only [isCandidate, decide_eq_true_eq] at hcandidate
  obtain ⟨hqueue, hexpires, hattempts, hfree⟩ := hcandidate
  exact ⟨hqueue.symm, hexpires, hattempts, (m.freeAt_iff h).mpr hfree⟩

theorem QueueMessage.exhausted {m : QueueMessage} (h : Checked queueMessageChecks m)
    {queue : QueueRow} {now : Int} (hcandidate : isDeadLetterCandidate queue now m) :
    m.stored.Exhausted queue.id queue.limits now := by
  simp only [isDeadLetterCandidate, decide_eq_true_eq] at hcandidate
  obtain ⟨hqueue, -, hended, hexpires, hattempts⟩ := hcandidate
  exact ⟨hqueue.symm, hexpires, hattempts, (m.freeAt_iff h).mpr (Or.inr hended)⟩

theorem QueueMessage.expired {m : QueueMessage} (h : Checked queueMessageChecks m) {now : Int}
    (hexpired : isExpired now m) : m.stored.Expired now := by
  simp only [isExpired, decide_eq_true_eq] at hexpired
  exact ⟨hexpired.1, (m.freeAt_iff h).mpr (hexpired.2.imp_right And.right)⟩

theorem QueueMessage.held {m : QueueMessage} {queueId messageId receiptHandle : Uuid} {now : Int}
    (hack : isAcknowledgeable queueId messageId receiptHandle now m) :
    m.stored.Held queueId receiptHandle now := by
  simp only [isAcknowledgeable, decide_eq_true_eq] at hack
  obtain ⟨-, hqueue, hhandle, hrunning⟩ := hack
  refine ⟨hqueue, m.availableAfter, ?_, hrunning⟩
  show m.availability = _
  rw [QueueMessage.availability, hhandle]

/-- Whoever holds a message can acknowledge it. -/
theorem QueueMessage.acknowledgeable {m : QueueMessage} {queueId receiptHandle : Uuid} {now : Int}
    (h : m.stored.Held queueId receiptHandle now) :
    isAcknowledgeable queueId m.id receiptHandle now m := by
  obtain ⟨hqueue, ending, havailability, hrunning⟩ := h
  replace havailability : m.availability = .leased receiptHandle ending := havailability
  rw [isAcknowledgeable, decide_eq_true_eq]
  cases hhandle : m.receiptHandle with
  | none => simp [QueueMessage.availability, hhandle] at havailability
  | some handle =>
    simp only [QueueMessage.availability, hhandle, Availability.leased.injEq] at havailability
    obtain ⟨rfl, rfl⟩ := havailability
    exact ⟨rfl, hqueue, rfl, hrunning⟩

/-! ## Operations -/

section Operations

variable {queues : List QueueRow} {db db' : Database} {store : MessageStore} {now : Int}

/-- Deleting messages. -/
theorem Database.Realizes.remove (h : db.Realizes store) (gone : List Uuid)
    (shards : List QueuePriorityStateShard) :
    (db.withMessages (db.queueMessage.filter fun m => m.id ∉ gone) shards).Realizes
      (store.remove gone) where
  queues := h.queues
  live id := by
    show (if id ∈ gone then none else store.live id) = _
    rw [lookup_delete, h.live]
    split <;> rfl
  archived := h.archived

/-- Deleting archived messages. -/
theorem Database.Realizes.purge (h : db.Realizes store) (gone : List Uuid) :
    Database.Realizes
      { db with
        queueDeadLetterMessage := db.queueDeadLetterMessage.filter fun d => d.id ∉ gone }
      (store.purge gone) where
  queues := h.queues
  live := h.live
  archived id := by
    show (if id ∈ gone then none else store.archived id) = _
    rw [lookup_delete, h.archived]
    split <;> rfl

/-- The rows that a delete has taken have the identifiers that it was given. -/
theorem gone_ids {α : Type} {key : α → Uuid} {rows some : List α} (h : (rows.map key).Nodup)
    (hsome : ∀ a ∈ some, a ∈ rows) :
    ((rows.filter fun a => key a ∈ some.map key).map key).Nodup ∧
      ∀ id, id ∈ (rows.filter fun a => key a ∈ some.map key).map key ↔ id ∈ some.map key := by
  refine ⟨(List.filter_sublist.map key).nodup h, fun id => ?_⟩
  simp only [List.mem_map, List.mem_filter, decide_eq_true_eq]
  constructor
  · rintro ⟨a, ⟨-, hmem⟩, rfl⟩
    exact hmem
  · rintro ⟨a, ha, rfl⟩
    exact ⟨a, ⟨hsome a ha, a, ha, rfl⟩, rfl⟩

theorem MessageStore.remove_congr {gone gone' : List Uuid} (h : ∀ id, id ∈ gone ↔ id ∈ gone') :
    store.remove gone = store.remove gone' := by
  simp only [MessageStore.remove, h]

theorem MessageStore.purge_congr {gone gone' : List Uuid} (h : ∀ id, id ∈ gone ↔ id ∈ gone') :
    store.purge gone = store.purge gone' := by
  simp only [MessageStore.purge, h]

/-- What has failed does nothing. -/
theorem Effect.does_failed (hstore : db.Realizes store) {op : Operation} {error : RepositoryError}
    (heffect : Effect queues db now op (.failed error) db') :
    ∃ store', store.Does now op (.failed error) store' ∧ db'.Realizes store' := by
  cases heffect with
  | failed hseq => exact ⟨store, .failed, ⟨hstore.queues, hstore.live, hstore.archived⟩⟩

/-- **An expired cleanup does what the store allows.** -/
theorem Effect.does_expired (h : db.Valid) (hstore : db.Realizes store) {batchSize : UInt32}
    {summary : ExpiredMessagesCleanupSummary}
    (heffect : Effect queues db now (.processExpiredMessages batchSize)
      (.processExpiredMessages summary) db') :
    ∃ store', store.Does now (.processExpiredMessages batchSize) (.processExpiredMessages summary)
      store' ∧ db'.Realizes store' := by
  obtain ⟨hprocessed, -⟩ := heffect.expired_report h
  cases heffect with
  | @expired _ expired _ shards hexpired hsummary =>
    obtain ⟨hnodup, hgone⟩ := gone_ids h.messages.ids fun m hm => (hexpired m hm).1
    rw [removedMessages, removedRows_filter] at hprocessed
    refine ⟨_, .expired hnodup (fun id hid => ?_) (by rw [hprocessed, List.length_map]), ?_⟩
    · obtain ⟨m, hm, rfl⟩ := List.mem_map.mp ((hgone id).mp hid)
      obtain ⟨hlive, hwanted⟩ := hexpired m hm
      exact ⟨m.stored, hstore.message h hlive, m.expired (h.messages.checked m hlive) hwanted⟩
    · rw [MessageStore.remove_congr hgone]
      exact hstore.remove _ _

/-- **A purge does what the store allows.** -/
theorem Effect.does_purged (h : db.Valid) (hstore : db.Realizes store) {retentionSeconds : Int}
    {batchSize : UInt32} {summary : DeadLetterMessagesPurgeSummary}
    (heffect : Effect queues db now (.purgeDeadLetterMessages retentionSeconds batchSize)
      (.purgeDeadLetterMessages summary) db') :
    ∃ store', store.Does now (.purgeDeadLetterMessages retentionSeconds batchSize)
      (.purgeDeadLetterMessages summary) store' ∧ db'.Realizes store' := by
  obtain ⟨hcounted, -⟩ := heffect.purge_report h
  cases heffect with
  | @purged _ _ purged _ hpurged hsummary =>
    obtain ⟨hnodup, hgone⟩ := gone_ids h.deadLetterIds fun d hd => (hpurged d hd).1
    rw [removedDeadLetters, removedRows_filter] at hcounted
    refine ⟨_, .purged hnodup (fun id hid => ?_) (by rw [hcounted, List.length_map]), ?_⟩
    · obtain ⟨d, hd, rfl⟩ := List.mem_map.mp ((hgone id).mp hid)
      obtain ⟨hlive, hwanted⟩ := hpurged d hd
      exact ⟨d.stored, hstore.deadLetter h hlive, of_decide_eq_true hwanted⟩
    · rw [MessageStore.purge_congr hgone]
      exact hstore.purge _

/-- **An acknowledge does what the store allows.** -/
theorem Effect.does_acknowledged (h : db.Valid) (hstore : db.Realizes store)
    {queueId messageId receiptHandle : Uuid} {outcome : AcknowledgeMessageOutcome}
    (heffect : Effect queues db now (.acknowledgeMessage queueId messageId receiptHandle)
      (.acknowledgeMessage outcome) db') :
    ∃ store', store.Does now (.acknowledgeMessage queueId messageId receiptHandle)
      (.acknowledgeMessage outcome) store' ∧ db'.Realizes store' := by
  cases heffect with
  | @acknowledged _ _ _ m shards hm hack =>
    have hid : m.id = messageId := by
      simp only [isAcknowledgeable, decide_eq_true_eq] at hack
      exact hack.1
    refine ⟨_, .acknowledged (hid ▸ hstore.message h hm) (m.held hack), ?_⟩
    have hremoved := hstore.remove [messageId] shards
    simpa using hremoved
  | unchanged => exact ⟨store, .unchanged, hstore⟩

/-- **An enqueue does what the store allows.** -/
theorem Effect.does_enqueued (h : db.Valid) (hstore : db.Realizes store) {queueId : Uuid}
    {message : Message} {ttl : UInt32} {response : Response}
    (hnew : ∀ d ∈ db.queueDeadLetterMessage, d.id ≠ message.id)
    (heffect : Effect queues db now (.enqueueMessage queueId message ttl) response db') :
    ∃ store', store.Does now (.enqueueMessage queueId message ttl) response store' ∧
      db'.Realizes store' := by
  cases heffect with
  | failed hseq => exact ⟨store, .failed, ⟨hstore.queues, hstore.live, hstore.archived⟩⟩
  | @enqueued _ _ _ enqueueOrder seq shards hqueue hid hchecked hseq =>
    obtain ⟨q, hq, rfl⟩ := hqueue
    obtain ⟨stored, hstored, -⟩ := hstore.queue h hq
    refine ⟨_, .enqueued (by rw [hstored]; rfl) ?_ ?_, ⟨hstore.queues, fun id => ?_,
      hstore.archived⟩⟩
    · rw [hstore.live, lookup_eq_none.mpr hid]
      rfl
    · rw [hstore.archived, lookup_eq_none.mpr hnew]
      rfl
    · show Function.update store.live message.id _ id = _
      have hrow : (message.row q.id ttl enqueueOrder now).id = message.id := rfl
      rw [lookup_insert hid, hrow]
      by_cases hthis : id = message.id
      · subst hthis
        rw [Function.update_self, Function.update_self]
        rfl
      · rw [Function.update_of_ne hthis, Function.update_of_ne hthis, hstore.live]

/-- The dead letters that a dequeue stores are the messages that it gives up. -/
theorem lookup_deadLetters {exhausted deleted : List QueueMessage}
    {stored : List QueueDeadLetterMessage} (hnodup : (stored.map (·.id)).Nodup)
    (hdeleted : deleted.Perm exhausted)
    (hstored : List.Forall₂ (fun m d => m.deadLetter now = .ok d) deleted stored) :
    (∀ m ∈ exhausted, ∃ d, lookup (·.id) stored m.id = some d ∧ d.stored = m.stored.archive now) ∧
      ∀ id ∉ exhausted.map (·.id), lookup (·.id) stored id = none := by
  have hkeep : ∀ {m : QueueMessage} {d : QueueDeadLetterMessage}, m.deadLetter now = .ok d →
      d.id = m.id ∧ d.stored = m.stored.archive now := by
    intro m d hd
    obtain ⟨delivered, -, rfl⟩ := deadLetter_eq_ok.mp hd
    exact ⟨rfl, rfl⟩
  constructor
  · intro m hm
    obtain ⟨i, hi, hmi⟩ := List.mem_iff_getElem.mp (hdeleted.mem_iff.mpr hm)
    have hlength := hstored.length_eq
    have hd := List.forall₂_iff_get.mp hstored |>.2 i hi (hlength ▸ hi)
    simp only [List.get_eq_getElem, hmi] at hd
    obtain ⟨hid, harchive⟩ := hkeep hd
    exact ⟨_, (lookup_eq_some hnodup).mpr ⟨List.getElem_mem _, hid⟩, harchive⟩
  · intro id hid
    rw [lookup_eq_none]
    rintro d hd rfl
    obtain ⟨i, hi, rfl⟩ := List.mem_iff_getElem.mp hd
    have hlength := hstored.length_eq
    have hm := List.forall₂_iff_get.mp hstored |>.2 i (hlength ▸ hi) hi
    simp only [List.get_eq_getElem] at hm
    refine hid (List.mem_map.mpr ⟨_, hdeleted.mem_iff.mp (List.getElem_mem _), (hkeep hm).1.symm⟩)

/-- **A dequeue does what the store allows.** -/
theorem Effect.does_dequeued (h : db.Valid) (h' : db'.Valid) (hstore : db.Realizes store)
    (hdisjoint : ∀ m ∈ db.queueMessage, ∀ d ∈ db.queueDeadLetterMessage, d.id ≠ m.id)
    (hread : ∀ q ∈ queues, ∃ stored, store.queues q.id = some stored ∧ stored.name = q.name ∧
      stored.Knows q.limits)
    {queueId receiptHandle : Uuid} {response : Response}
    (heffect : Effect queues db now (.dequeueMessage queueId receiptHandle) response db') :
    ∃ store', store.Does now (.dequeueMessage queueId receiptHandle) response store' ∧
      db'.Realizes store' := by
  cases heffect with
  | failed hseq => exact ⟨store, .failed, ⟨hstore.queues, hstore.live, hstore.archived⟩⟩
  | queueNotFound => exact ⟨store, .queueNotFound, hstore⟩
  | @dequeued _ _ queue exhausted deleted candidate stored outcome shards hqueue hchecked hid hnodup
      hexhausted hcandidate hdeleted hstored houtcome =>
    subst hid
    obtain ⟨known, hknown, hname, hlimits⟩ := hread queue hqueue
    have hids : (exhausted.map (·.id)).Nodup := List.Nodup.map_on (fun m hm m' hm' heq =>
      eq_of_key_eq h.messages.ids (hexhausted m hm).1 (hexhausted m' hm').1 heq) hnodup
    have hnew := h'.deadLetterIds
    rw [List.map_append] at hnew
    obtain ⟨harchived, hothers⟩ := lookup_deadLetters hnew.of_append_right hdeleted hstored
    refine ⟨(store.archive (exhausted.map (·.id)) now).lease (candidate.map (·.id)) receiptHandle
        (now + seconds queue.visibilityTimeoutSeconds),
      .dequeued hknown hlimits hids (fun id hmem => ?_) (fun id hmem => ?_) ?_,
      ⟨hstore.queues, fun id => ?_, fun id => ?_⟩⟩
    · obtain ⟨m, hm, rfl⟩ := List.mem_map.mp hmem
      obtain ⟨hlive, hwanted⟩ := hexhausted m hm
      exact ⟨m.stored, hstore.message h hlive, m.exhausted (h.messages.checked m hlive) hwanted⟩
    · obtain ⟨m, hm, rfl⟩ := Option.map_eq_some_iff.mp hmem
      obtain ⟨hlive, hwanted, -⟩ := hcandidate m hm
      exact ⟨m.stored, hstore.message h hlive, m.deliverable (h.messages.checked m hlive) hwanted⟩
    · rw [hname, List.length_map]
      cases houtcome with
      | empty => exact .empty
      | @dequeued m _ _ hpayload hpriority =>
        exact .dequeued (hstore.message h (hcandidate m rfl).1) hpayload hpriority
    · have hreceipt : ∀ m : QueueMessage,
          (if candidate.map (·.id) = some m.id then
            m.lease receiptHandle now queue.visibilityTimeoutSeconds else m).id = m.id := by
        intro m
        split <;> rfl
      show (if candidate.map (·.id) = some id then
          (if id ∈ exhausted.map (·.id) then none else store.live id).map _
        else if id ∈ exhausted.map (·.id) then none else store.live id) = _
      rw [dequeuedMessages, lookup_update hreceipt, lookup_delete, hstore.live]
      by_cases hgone : id ∈ exhausted.map (·.id)
      · simp only [if_pos hgone, Option.map_none, ite_self]
      · rw [if_neg hgone, if_neg hgone]
        cases hm : lookup (·.id) db.queueMessage id with
        | none => simp
        | some m =>
          obtain rfl := ((lookup_eq_some h.messages.ids).mp hm).2
          by_cases hthis : candidate.map (·.id) = some m.id
          · simp only [if_pos hthis, Option.map_some]
            rfl
          · simp only [if_neg hthis, Option.map_some]
    · show (if id ∈ exhausted.map (·.id) then (store.live id).map (·.archive now)
        else store.archived id) = _
      rw [lookup_append]
      by_cases hgone : id ∈ exhausted.map (·.id)
      · obtain ⟨m, hm, rfl⟩ := List.mem_map.mp hgone
        obtain ⟨d, hd, harchive⟩ := harchived m hm
        have hlive := (hexhausted m hm).1
        rw [if_pos hgone, hstore.message h hlive,
          lookup_eq_none.mpr (hdisjoint m hlive), Option.none_or, hd, Option.map_some,
          Option.map_some, harchive]
      · rw [if_neg hgone, hothers id hgone, Option.or_none, hstore.archived]

/-- **A create does what the store allows.** -/
theorem does_createQueue (h : db.Valid) (hstore : db.Realizes store) (queue : Queue) :
    ∃ store', store.Does now (.createQueue queue) (createQueue db now queue).2 store' ∧
      (createQueue db now queue).1.Realizes store' := by
  rw [createQueue, Queue.row_ok]
  generalize hrow : proposedRow queue.id queue.name.asStr _ _ _ now = row
  obtain ⟨hid, hname, hlimits⟩ : row.id = queue.id ∧ row.name = queue.name.asStr ∧
      row.limits = .ofSettings queue.settings := by
    subst hrow
    exact ⟨rfl, rfl, rfl⟩
  show ∃ store', store.Does now _ (settle db .createQueue (insertQueue db row)).2 store' ∧
    (settle db .createQueue (insertQueue db row)).1.Realizes store'
  cases hinsert : insertQueue db row with
  | error e => exact ⟨store, .failed, hstore⟩
  | ok result =>
    obtain ⟨-, hinsert⟩ := guard_eq_ok.mp hinsert
    split at hinsert
    · rename_i htaken
      obtain rfl := Except.ok.inj hinsert
      simp only [List.any_eq_true, decide_eq_true_eq] at htaken
      obtain ⟨q, hq, htaken⟩ := htaken
      obtain ⟨stored, hstored, hstoredName, -⟩ := hstore.queue h hq
      exact ⟨store, .alreadyExists ⟨q.id, stored, hstored, hstoredName.trans (htaken.trans hname)⟩,
        hstore⟩
    · rename_i hfree
      obtain ⟨hfresh, hinsert⟩ := guard_eq_ok.mp hinsert
      obtain rfl := Except.ok.inj hinsert
      simp only [require_eq_ok, queueExists_iff, not_exists, not_and] at hfresh
      simp only [List.any_eq_true, decide_eq_true_eq, not_exists, not_and] at hfree
      refine ⟨_, .created (hstore.no_queue fun q hq => hid ▸ hfresh q hq) ?_, ?_, hstore.live,
        hstore.archived⟩
      · intro id stored hstored heq
        have hfound := hstore.queues id
        rw [hstored, Option.map_some] at hfound
        obtain ⟨q, hq, hpair⟩ := Option.map_eq_some_iff.mp hfound.symm
        have hmem := ((lookup_eq_some h.queueIds).mp hq).1
        exact hfree q hmem ((Prod.mk.inj hpair).1.trans (heq.trans hname.symm))
      · intro id
        show (Function.update store.queues queue.id _ id).map _ =
          (lookup (·.id) (db.queue ++ [row]) id).map _
        rw [lookup_insert hfresh, hid]
        by_cases hthis : id = queue.id
        · subst hthis
          simp only [Function.update_self, Option.map_some, hname, hlimits]
        · simp only [Function.update_of_ne hthis]
          exact hstore.queues id

/-- **An update does what the store allows.** -/
theorem does_updateQueue (h : db.Valid) (hstore : db.Realizes store) (queueId : Uuid)
    (configuration : QueueConfigurationUpdate) :
    ∃ store', store.Does now (.updateQueue queueId configuration)
      (updateQueue db now queueId configuration).2 store' ∧
        (updateQueue db now queueId configuration).1.Realizes store' := by
  have hlimits : ∀ row : QueueRow, (row.configure now
      (configuration.visibilityTimeoutSeconds.map fun value => (value.toNat : Int))
      (configuration.maxDeliveryAttempts.map fun value => (value.toNat : Int))
      (configuration.defaultMessageTtlSeconds.map fun value => (value.toNat : Int))).limits =
        row.limits.configure configuration := fun row => rfl
  rw [updateQueue, configuration.parameters_ok]
  simp only [boundParameters]
  generalize configuration.visibilityTimeoutSeconds.map _ = visibility at hlimits ⊢
  generalize configuration.maxDeliveryAttempts.map _ = attempts at hlimits ⊢
  generalize configuration.defaultMessageTtlSeconds.map _ = ttl at hlimits ⊢
  cases hfind : db.queue.find? fun q => q.id = queueId with
  | none =>
    have hconfigure : configureQueue db queueId now visibility attempts ttl = .ok (db, none) := by
      rw [configureQueue, hfind]
      rfl
    rw [hconfigure]
    exact ⟨store, .notConfigured (hstore.no_queue (find?_key_eq_none.mp hfind)), hstore⟩
  | some row =>
    obtain ⟨hrow, rfl⟩ := (find?_key_eq_some h.queueIds).mp hfind
    cases hconfigure : configureQueue db row.id now visibility attempts ttl with
    | error e => exact ⟨store, .failed, hstore⟩
    | ok result =>
      rw [configureQueue, hfind] at hconfigure
      obtain ⟨hcheck, hconfigure⟩ := guard_eq_ok.mp hconfigure
      obtain rfl := Except.ok.inj hconfigure
      obtain ⟨details, hdetails, hdescribes⟩ :=
        queueDetailsFromRow_describes (checkRow_eq_ok.mp hcheck)
      obtain ⟨stored, hstored, hname, hstoredLimits⟩ := hstore.queue h hrow
      have hread : (some (row.configure now visibility attempts ttl)).mapM queueDetailsFromRow =
          .ok (some details) := by
        show some <$> queueDetailsFromRow _ = _
        rw [hdetails]
        rfl
      show ∃ store', store.Does now _ (respond .updateQueue _) store' ∧ _
      rw [hread]
      refine ⟨_, .configured hstored ⟨hdescribes.id, hdescribes.name.trans hname.symm⟩ ?_, ?_,
        hstore.live, hstore.archived⟩
      · rw [hstoredLimits, ← hlimits, QueueLimits.ofDetails, hdescribes.visibility,
          hdescribes.attempts, hdescribes.ttl]
        rfl
      · intro id
        have hreplace : ∀ q : QueueRow, (if q.id = row.id then
            row.configure now visibility attempts ttl else q).id = q.id := by
          intro q
          split
          · rename_i hq
            exact hq.symm
          · rfl
        show (Function.update store.queues row.id _ id).map _ =
          (lookup QueueRow.id (db.queue.map fun q => _) id).map _
        rw [lookup_update hreplace]
        by_cases hthis : id = row.id
        · subst hthis
          rw [Function.update_self, lookup_self h.queueIds hrow, Option.map_some, Option.map_some,
            if_pos rfl, Option.map_some, hlimits, hstoredLimits, hname]
          rfl
        · rw [Function.update_of_ne hthis, hstore.queues]
          cases hother : lookup (·.id) db.queue id with
          | none => rfl
          | some q =>
            obtain rfl := ((lookup_eq_some h.queueIds).mp hother).2
            rw [Option.map_some, Option.map_some, if_neg hthis, Option.map_some]

end Operations

/-! ## Transactions -/

/-- A queue stays in the store, and so does what it knows. -/
theorem MessageStore.Does.queue_kept {store store' : MessageStore} {now : Int} {op : Operation}
    {response : Response} (hdoes : store.Does now op response store') {id : Uuid} {q : StoredQueue}
    (hq : store.queues id = some q) :
    ∃ q', store'.queues id = some q' ∧ q'.name = q.name ∧
      ∀ limits, q.Knows limits → q'.Knows limits := by
  cases hdoes with
  | @created queue hid hname =>
    have hother : id ≠ queue.id := by
      rintro rfl
      rw [hq] at hid
      simp at hid
    exact ⟨q, (Function.update_of_ne hother _ _).trans hq, rfl, fun _ h => h⟩
  | @configured queueId configuration q' details hqueue hname hdetails =>
    by_cases hthis : id = queueId
    · subst hthis
      obtain rfl := Option.some.inj (hq.symm.trans hqueue)
      exact ⟨_, Function.update_self _ _ _, rfl, fun limits hknows =>
        Or.inr (List.mem_cons.mpr hknows)⟩
    · exact ⟨q, (Function.update_of_ne hthis _ _).trans hq, rfl, fun _ h => h⟩
  | _ => exact ⟨q, hq, rfl, fun _ h => h⟩

/-- The system shows the store: the tables have what it has, and what a transaction has read of a
    queue is, or has been, its configuration. -/
structure System.Shows (s : System) (store : MessageStore) : Prop where
  tables : s.db.Realizes store
  read : ∀ tid t, s.txns tid = some t → t.phase.active → ∀ q ∈ t.queue,
    ∃ stored, store.queues q.id = some stored ∧ stored.name = q.name ∧ stored.Knows q.limits

/-- **A commit does what the store allows.** -/
theorem Txn.Inv.does {s : System} {tid : Nat} {t : Txn} {store : MessageStore} (h : t.Inv s tid)
    (hinv : s.Inv) (hshows : s.Shows store) (ht : s.txns tid = some t) (hactive : t.phase.active) :
    ∃ store', store.Does t.now t.op (t.execute order s.db).2 store' ∧
      (t.execute order s.db).1.Realizes store' := by
  obtain ⟨heffect, hvalid'⟩ := h.execute_effect hinv.valid order
  have hvalid := hinv.valid
  have htables := hshows.tables
  have hread := fun q (hq : q ∈ t.queue.toList) => hshows.read tid t ht hactive q
    (Option.mem_toList.mp hq)
  have hnew := fun id (hid : id ∈ t.op.enqueuedId) => (h.messageId id hid).2.2
  have hcreate : ∀ queue, t.op = .createQueue queue →
      t.execute order s.db = createQueue s.db t.now queue := by
    intro queue hop
    rw [Txn.execute, hop]
  have hupdate : ∀ queueId configuration, t.op = .updateQueue queueId configuration →
      t.execute order s.db = updateQueue s.db t.now queueId configuration := by
    intro queueId configuration hop
    rw [Txn.execute, hop]
  generalize t.execute order s.db = result at heffect hvalid' hcreate hupdate ⊢
  obtain ⟨db', response⟩ := result
  generalize t.op = op at heffect hnew hcreate hupdate ⊢
  cases op with
  | createQueue queue =>
    rw [hcreate queue rfl]
    exact does_createQueue hvalid htables queue
  | updateQueue queueId configuration =>
    rw [hupdate queueId configuration rfl]
    exact does_updateQueue hvalid htables queueId configuration
  | enqueueMessage queueId message ttl =>
    exact heffect.does_enqueued hvalid htables (hnew message.id rfl)
  | dequeueMessage queueId receiptHandle =>
    exact heffect.does_dequeued hvalid hvalid' htables hinv.disjoint hread
  | acknowledgeMessage queueId messageId receiptHandle =>
    cases response with
    | acknowledgeMessage outcome => exact heffect.does_acknowledged hvalid htables
    | failed error => exact heffect.does_failed htables
    | _ => cases heffect
  | processExpiredMessages batchSize =>
    cases response with
    | processExpiredMessages summary => exact heffect.does_expired hvalid htables
    | failed error => exact heffect.does_failed htables
    | _ => cases heffect
  | purgeDeadLetterMessages retentionSeconds batchSize =>
    cases response with
    | purgeDeadLetterMessages summary => exact heffect.does_purged hvalid htables
    | failed error => exact heffect.does_failed htables
    | _ => cases heffect

/-- A step of the database does nothing, or what one operation may do. -/
theorem Step.does {s s' : System} {a : Action} {store : MessageStore} (hstep : Step order s a s')
    (hinv : s.Inv) (hshows : s.Shows store) :
    ((∀ tid, a ≠ .commit tid) ∧ s'.Shows store) ∨
      ∃ tid t store', a = .commit tid ∧ s.txns tid = some t ∧
        store.Does t.now t.op (t.execute order s.db).2 store' ∧ s'.Shows store' := by
  have hread : ∀ tid t', s'.txns tid = some t' → t'.phase.active → ∀ q ∈ t'.queue,
      ∃ stored, store.queues q.id = some stored ∧ stored.name = q.name ∧ stored.Knows q.limits := by
    intro tid t' ht' hactive' q hq
    rcases hstep.queue_origin ht' hactive' hq with hq | ⟨t, ht, hactive, hq⟩
    · obtain ⟨stored, hstored, hname, hlimits⟩ := hshows.tables.queue hinv.valid hq
      exact ⟨stored, hstored, hname, Or.inl hlimits.symm⟩
    · exact hshows.read tid t ht hactive q hq
  have hquiet : s'.db.queue = s.db.queue → s'.db.queueMessage = s.db.queueMessage →
      s'.db.queueDeadLetterMessage = s.db.queueDeadLetterMessage → s'.Shows store := by
    intro hqueue hmessages hdead
    refine ⟨⟨?_, ?_, ?_⟩, hread⟩
    · rw [hqueue]
      exact hshows.tables.queues
    · rw [hmessages]
      exact hshows.tables.live
    · rw [hdead]
      exact hshows.tables.archived
  cases hstep with
  | @commit tid t ht hphase hcounters =>
    have hactive : t.phase.active := by rw [hphase]; rfl
    obtain ⟨store', hdoes, htables⟩ := (hinv.txn tid t ht hactive).does hinv hshows ht hactive
    refine Or.inr ⟨tid, t, store', rfl, ht, hdoes, htables, ?_⟩
    intro other t' ht' hactive' q hq
    obtain ⟨stored, hstored, hname, hknows⟩ := hread other t' ht' hactive' q hq
    obtain ⟨stored', hstored', hname', hknows'⟩ := hdoes.queue_kept hstored
    exact ⟨stored', hstored', hname'.trans hname, hknows' _ hknows⟩
  | _ => exact Or.inl ⟨by simp, hquiet rfl rfl rfl⟩

/-- A transaction begins with its start. -/
theorem Step.begins {s s' : System} {a : Action} (hstep : Step order s a s') {tid : Nat} {t : Txn}
    (hidle : s.txns tid = none) (ht' : s'.txns tid = some t) : t.phase = .started := by
  have hset : ∀ {actor : Nat} {u v : Txn}, s.txns actor = some u →
      (s.setTxn actor v).txns tid = some t → t.phase = .started := by
    intro actor u v hu ht'
    rcases System.setTxn_eq_some.mp ht' with ⟨rfl, -⟩ | ⟨-, ht⟩
    · rw [hidle] at hu
      simp at hu
    · rw [hidle] at ht
      simp at ht
  cases hstep with
  | tick =>
    rw [show s.txns tid = some t from ht'] at hidle
    simp at hidle
  | start =>
    rcases System.setTxn_eq_some.mp ht' with ⟨rfl, rfl⟩ | ⟨-, ht⟩
    · rfl
    · rw [hidle] at ht
      simp at ht
  | snapshot hu | pass hu | reject hu | pick hu | count hu | lockCounter hu | commit hu
  | abort hu => exact hset hu ht'

/-- A dequeue that answers that there is no queue saw none in its snapshot. -/
theorem TookSnapshot.no_queue {s₀ s : System} {tid : Nat} {t : Txn} {store : MessageStore}
    (htook : TookSnapshot order s₀ tid s) (ht : s.txns tid = some t) {queueId receiptHandle : Uuid}
    (hop : t.op = .dequeueMessage queueId receiptHandle)
    (hphase : t.phase = .committed (.dequeueMessage .queueNotFound))
    (hstore : s₀.db.Realizes store) : store.queues queueId = none := by
  obtain ⟨u, hu, -, hscanned⟩ := htook.scanned
  obtain rfl := Option.some.inj (ht.symm.trans hu)
  have hqueue := (hscanned (by simp [hphase])).queue
  have hnone := (told_of_reachable (Execution.trans htook.reachable htook.run) tid t _ ht
    hphase).notFound _ _ hop rfl
  rw [hnone, hop] at hqueue
  exact hstore.no_queue (find?_key_eq_none.mp hqueue.symm)

/-- An acknowledge that answers that nothing has changed saw that the message was not held. -/
theorem TakesEffect.not_held {s₀ s : System} {tid : Nat} {t : Txn} {store : MessageStore}
    (hmoment : TakesEffect order s₀ tid s) (ht : s.txns tid = some t)
    {queueId messageId receiptHandle : Uuid}
    (hop : t.op = .acknowledgeMessage queueId messageId receiptHandle)
    (hphase : t.phase = .committed (.acknowledgeMessage .unchanged))
    (hstore : s₀.db.Realizes store) :
    ∀ m, store.live messageId = some m → ¬m.Held queueId receiptHandle t.now := by
  have hanswer := hmoment.answer ht hop hphase
  obtain ⟨-, -, hreachable, -⟩ := hmoment
  intro m hlive hheld
  rw [hstore.live] at hlive
  obtain ⟨row, hrow, rfl⟩ := Option.map_eq_some_iff.mp hlive
  obtain ⟨hmem, rfl⟩ := (lookup_eq_some hreachable.inv.valid.messages.ids).mp hrow
  rcases hanswer with ⟨hacknowledged, -⟩ | ⟨-, hno⟩
  · simp at hacknowledged
  · exact hno ⟨row, hmem, row.acknowledgeable hheld⟩

/-! ## The service -/

/-- What an operation has done, at a time. -/
structure Performed where
  now : Int
  op : Operation
  response : Response

def Event.performed (e : Event) : Performed := ⟨e.now, e.op, e.response⟩

def MessageStore.Performs (store : MessageStore) (p : Performed) (store' : MessageStore) : Prop :=
  store.Does p.now p.op p.response store'

def MessageStore.Decided (store : MessageStore) (p : Performed) : Prop :=
  store.Saw p.now p.op p.response

namespace Service

/-- The calls of the service: its transactions.  A call has returned when a thread has its result. -/
def calls : Calls Service Nat Performed where
  made s tid := s.system.txns tid ≠ none
  returned s tid p := ∃ id thread t, ∃ result : p.op.Result, s.threads id = some thread ∧
    thread.sent = some tid ∧ ⟨.run p.op, .ok result⟩ ∈ thread.answered ∧
    p.response = p.op.respond result ∧ s.system.txns tid = some t ∧ p.now = t.now

/-- What has been committed, in this order. -/
def performed (s : Service) : List (Nat × Performed) := s.commits.map fun c => (c.1, c.2.performed)

def Shows (s : Service) (store : MessageStore) : Prop := s.system.Shows store

theorem initial_shows : Service.initial.Shows .empty where
  tables := ⟨fun _ => rfl, fun _ => rfl, fun _ => rfl⟩
  read := by simp [initial, System.initial]

variable {s s' : Service}

/-- A step of the service commits nothing, or one transaction. -/
theorem Step.performed {a : ServiceAction} {store : MessageStore} (hstep : Step order s a s')
    (hinv : s.Inv order) (hshows : s.Shows store) :
    (s'.performed = s.performed ∧ s'.Shows store) ∨
      ∃ entry store', s'.performed = s.performed ++ [entry] ∧ store.Performs entry.2 store' ∧
        s'.Shows store' := by
  have hsystem := hinv.reachable.inv
  cases hstep with
  | @system a system hstart hstep =>
    rcases (Retsu.step_cases hstep).does hsystem hshows with
      ⟨hquiet, hshows'⟩ | ⟨tid, t, store', rfl, ht, hdoes, hshows'⟩
    · refine Or.inl ⟨?_, hshows'⟩
      have hsame : (s.afterSystem order a system).commits = s.commits := by
        cases a <;> first | exact List.append_nil _ | exact absurd rfl (hquiet _)
      rw [Service.performed, hsame]
      rfl
    · refine Or.inr ⟨(tid, (s.system.commitEvent order t).performed), store', ?_, hdoes, hshows'⟩
      show (s.commits ++ (s.system.txns tid).toList.map _).map _ = s.commits.map _ ++ [_]
      rw [ht, List.map_append]
      rfl
  | send hthread hsent hprogram hstep =>
    rcases (Retsu.step_cases hstep).does hsystem hshows with
      ⟨-, hshows'⟩ | ⟨tid, t, store', hcommit, -⟩
    · exact Or.inl ⟨rfl, hshows'⟩
    · simp at hcommit
  | _ => exact Or.inl ⟨rfl, hshows⟩

/-- Whatever has been performed has been committed. -/
theorem Inv.committed_of_performed (h : s.Inv order) {tid : Nat} {p : Performed}
    (hmem : (tid, p) ∈ s.performed) : ∃ t, s.system.txns tid = some t ∧ t.op = p.op ∧
      t.now = p.now ∧ t.phase = .committed p.response := by
  obtain ⟨c, hc, heq⟩ := List.mem_map.mp hmem
  obtain ⟨rfl, rfl⟩ := Prod.mk.inj heq
  exact h.committed c hc

/-- The step at which a transaction has come to satisfy `P`, on its way from its start to its
    commit. -/
structure Turning (order : TriggerOrder) (P : System → Prop) (tid : Nat) (s s₀ s' : Service)
    (a : Action) (system : System) : Prop where
  before : Execution (Service.step order) anyAction s s₀
  after : Execution (Service.step order) anyAction s₀ s'
  step : Retsu.step order s₀.system a = some system
  no : ¬P s₀.system
  yes : P system
  rest : Execution (Retsu.step order) anyAction system s'.system
  made : s₀.system.txns tid ≠ none
  absent : ∀ p, (tid, p) ∉ s₀.performed

theorem Reachable.turning (h : s.Reachable order) {P : System → Prop} {tid : Nat}
    (hP : ∀ system, P system → ∃ t, system.txns tid = some t ∧ t.phase ≠ .started)
    (hcommitted : ∀ (system : System) (t : Txn) (response : Response), system.txns tid = some t →
      t.phase = .committed response → P system)
    (hrun : Execution (Service.step order) anyAction s s') (hnew : s.system.txns tid = none)
    (hyes : P s'.system) : ∃ s₀ a system, Turning order P tid s s₀ s' a system := by
  have hno : ¬P s.system := by
    intro hyes
    obtain ⟨t, ht, -⟩ := hP _ hyes
    rw [hnew] at ht
    simp at ht
  obtain ⟨s₀, a, s₁, hbefore, hallowed, hturn, hno, hyes, hafter⟩ :=
    Execution.turning (P := fun s : Service => P s.system) hrun hno hyes
  have hrest := (Execution.step .refl hallowed hturn).trans hafter
  have hsystem := system_of_execution hafter
  have hturning : ∀ {a system}, Retsu.step order s₀.system a = some system → P system →
      Execution (Retsu.step order) anyAction system s'.system →
      ∃ s₀ a system, Turning order P tid s s₀ s' a system := by
    intro a system hstep hyes hsystem
    obtain ⟨t, ht, hstarted⟩ := hP _ hyes
    refine ⟨s₀, a, system, hbefore, hrest, hstep, hno, hyes, hsystem, fun hidle => ?_,
      fun p hmem => ?_⟩
    · exact hstarted ((Retsu.step_cases hstep).begins hidle ht)
    · obtain ⟨u, hu, -, -, hphase⟩ :=
        (Reachable.inv (h.trans hbefore)).committed_of_performed hmem
      exact hno (hcommitted _ u _ hu hphase)
  cases Service.step_cases hturn with
  | system hstart hstep => exact hturning hstep hyes hsystem
  | send hthread hsent hprogram hstep => exact hturning hstep hyes hsystem
  | _ => exact absurd hyes hno

/-- **Every operation has decided what to do since it was sent**, by what the tables had: a dequeue
    that finds no queue with its snapshot, an acknowledge that finds nothing to delete when it takes
    effect, and whatever else with its commit. -/
theorem Reachable.decides (h : s.Reachable order)
    (hrun : Execution (Service.step order) anyAction s s') {entry : Nat × Performed}
    (hentry : entry ∈ s'.performed) (hnew : s.system.txns entry.1 = none) :
    ∃ s₀, Execution (Service.step order) anyAction s s₀ ∧
      Execution (Service.step order) anyAction s₀ s' ∧ s₀.system.txns entry.1 ≠ none ∧
      entry ∉ s₀.performed ∧ ∀ store, s₀.Shows store → store.Decided entry.2 := by
  obtain ⟨tid, now, op, response⟩ := entry
  obtain ⟨t, ht, hop, rfl, hphase⟩ :=
    (Reachable.inv (h.trans hrun)).committed_of_performed hentry
  dsimp only at hop hphase hnew ⊢
  unfold MessageStore.Decided MessageStore.Saw
  split
  · rename_i hdequeue hnotFound
    obtain ⟨s₀, a, system, hturning⟩ := Reachable.turning h (P := fun s => s.HasSnapshot tid)
      (fun system hyes => by
        obtain ⟨u, hu, hstarted, -⟩ := hyes
        exact ⟨u, hu, hstarted⟩)
      (fun system u response hu hcommitted =>
        ⟨u, hu, by simp [hcommitted], by simp [hcommitted]⟩)
      hrun hnew ⟨t, ht, by simp [hphase], by simp [hphase]⟩
    obtain rfl := (Retsu.step_cases hturning.step).takesSnapshot hturning.no hturning.yes
    have htook : TookSnapshot order s₀.system tid s'.system :=
      ⟨system, (Reachable.inv (h.trans hturning.before)).reachable, hturning.step, hturning.rest⟩
    exact ⟨s₀, hturning.before, hturning.after, hturning.made, hturning.absent _, fun store hshows =>
      htook.no_queue ht (hop.trans hdequeue) (hnotFound ▸ hphase) hshows.tables⟩
  · rename_i hacknowledge hunchanged
    obtain ⟨s₀, a, system, hturning⟩ := Reachable.turning h (P := fun s => s.Decided tid)
      (fun system hyes => by
        obtain ⟨u, hu, hdecided⟩ := hyes
        refine ⟨u, hu, fun hstarted => ?_⟩
        rwa [Txn.Decided, hstarted] at hdecided)
      (fun system u response hu hcommitted => ⟨u, hu, by rw [Txn.Decided, hcommitted]; trivial⟩)
      hrun hnew ⟨t, ht, by rw [Txn.Decided, hphase]; trivial⟩
    have hmoment : TakesEffect order s₀.system tid s'.system :=
      ⟨a, system, (Reachable.inv (h.trans hturning.before)).reachable, hturning.no, hturning.step,
        hturning.yes, hturning.rest⟩
    exact ⟨s₀, hturning.before, hturning.after, hturning.made, hturning.absent _, fun store hshows =>
      hmoment.not_held ht (hop.trans hacknowledge) (hunchanged ▸ hphase) hshows.tables⟩
  · obtain ⟨s₀, a, system, hturning⟩ := Reachable.turning h
      (P := fun s => ∃ u response, s.txns tid = some u ∧ u.phase = .committed response)
      (fun system hyes => by
        obtain ⟨u, response, hu, hcommitted⟩ := hyes
        exact ⟨u, hu, by simp [hcommitted]⟩)
      (fun system u response hu hcommitted => ⟨u, response, hu, hcommitted⟩)
      hrun hnew ⟨t, _, ht, hphase⟩
    exact ⟨s₀, hturning.before, hturning.after, hturning.made, hturning.absent _, fun _ _ => trivial⟩

theorem commitLog (order : TriggerOrder) :
    CommitLog (Service.step order) .initial calls MessageStore.Performs MessageStore.Decided .empty
      Shows performed where
  begins := ⟨rfl, initial_shows⟩
  appends s a s' store hrun hstep hshows :=
    (step_cases hstep).performed (Reachable.inv hrun) hshows
  once s hrun := by
    have htids := (Reachable.inv hrun).tids
    rwa [performed, List.map_map]
  made s hrun entry hentry := by
    obtain ⟨c, hc, rfl⟩ := List.mem_map.mp hentry
    obtain ⟨t, ht, -⟩ := (Reachable.inv hrun).committed c hc
    show s.system.txns c.1 ≠ none
    rw [ht]
    simp
  returned s hrun tid p hreturned := by
    obtain ⟨id, thread, t, result, hthread, hsent, hmem, hresponse, ht, hnow⟩ := hreturned
    have hinv := Reachable.inv hrun
    obtain ⟨c, hc, hcsent, -, hcop, hcresponse⟩ := hinv.witnessed id thread hthread _ hmem
    obtain rfl := Option.some.inj (hsent.symm.trans hcsent)
    obtain ⟨u, hu, -, hcnow, -⟩ := hinv.committed c hc
    obtain rfl := Option.some.inj (ht.symm.trans hu)
    refine List.mem_map.mpr ⟨c, hc, Prod.ext rfl ?_⟩
    show Performed.mk c.2.now c.2.op c.2.response = p
    rw [hcop, hcresponse, ← hresponse, ← hcnow, ← hnow]
  decides s₁ s h₁ hrun entry hentry hnew := Reachable.decides h₁ hrun hentry (not_not.mp hnew)

end Service

/-- **The service is linearizable.**  In every run, with any interleaving of the transactions and
    any faults, a message store could have done what has been done, one operation after the other
    and with the same responses; an operation that has been sent after another one had returned
    comes after it; and the tables have what this store has in the end.  A dequeue that found no
    queue and an acknowledge that found nothing to delete were right about the store at some time
    between their call and their place in this order. -/
theorem service_linearizable (order : TriggerOrder) :
    Linearizable (Service.step order) Service.initial Service.calls MessageStore.Performs
      MessageStore.Decided .empty Service.Shows :=
  (Service.commitLog order).linearizable

end Retsu
