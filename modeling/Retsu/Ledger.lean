/-
  The ledger of the messages.

  An event moves messages: an enqueue brings one in, an acknowledge, a cleanup and a dequeue take
  messages out of the message table, the last into the archive, and a purge takes archived messages
  away.  `Event.moves` reads them off the tables before and after, and the ledger says that what
  has come in is what has gone out and what is still there, for any choice of messages by the
  columns that no statement changes, along every trace.
-/
import Retsu.Conservation
import Retsu.Trace
import Retsu.Reports
import Retsu.UseCases

namespace Retsu

open Relational UseCases

/-! ## What has been moved -/

/-- The columns that a message keeps for as long as one of the two tables has it. -/
structure Header where
  id : Uuid
  queueId : Uuid
  payload : ByteArray
  priority : Int
  enqueuedAt : Int
  expiresAt : Int
deriving DecidableEq

def QueueMessage.header (m : QueueMessage) : Header where
  id := m.id
  queueId := m.queueId
  payload := m.payload
  priority := m.priority
  enqueuedAt := m.enqueuedAt
  expiresAt := m.expiresAt

def QueueDeadLetterMessage.header (d : QueueDeadLetterMessage) : Header where
  id := d.id
  queueId := d.queueId
  payload := d.payload
  priority := d.priority
  enqueuedAt := d.enqueuedAt
  expiresAt := d.expiresAt

/-- A message that an event has moved, and the counter that counts such moves. -/
structure Move where
  instrument : Instrument
  header : Header
  deliveryAttempts : Int

def QueueMessage.move (instrument : Instrument) (m : QueueMessage) : Move :=
  ⟨instrument, m.header, m.deliveryAttempts⟩

def QueueDeadLetterMessage.move (instrument : Instrument) (d : QueueDeadLetterMessage) : Move :=
  ⟨instrument, d.header, d.deliveryAttempts⟩

/-- The counter of the moves that an operation makes. -/
def Operation.instrument : Operation → Option Instrument
  | createQueue _ | updateQueue _ _ => none
  | enqueueMessage _ _ _ => some .messagesEnqueued
  | dequeueMessage _ _ => some .messagesDeadLettered
  | acknowledgeMessage _ _ _ => some .messagesAcknowledged
  | processExpiredMessages _ => some .messagesExpired
  | purgeDeadLetterMessages _ _ => some .messagesPurged

/-- The messages that are in only one of the two states of a table. -/
def Event.moves (e : Event) : List Move :=
  match e.op.instrument with
  | none => []
  | some .messagesEnqueued =>
    (removedMessages e.after e.before).map (·.move .messagesEnqueued)
  | some .messagesPurged =>
    (removedDeadLetters e.before e.after).map (·.move .messagesPurged)
  | some instrument => (removedMessages e.before e.after).map (·.move instrument)

/-- How many of the messages that `p` holds of the events have moved. -/
def moved (events : List Event) (instrument : Instrument) (p : Header → Bool) : Nat :=
  (events.flatMap (·.moves)).countP fun move => move.instrument = instrument && p move.header

@[simp] theorem moved_nil (instrument : Instrument) (p : Header → Bool) :
    moved [] instrument p = 0 := rfl

theorem moved_append (events more : List Event) (instrument : Instrument) (p : Header → Bool) :
    moved (events ++ more) instrument p = moved events instrument p + moved more instrument p := by
  rw [moved, List.flatMap_append, List.countP_append]
  rfl

theorem moved_singleton (e : Event) (instrument : Instrument) (p : Header → Bool) :
    moved [e] instrument p =
      e.moves.countP fun move => move.instrument = instrument && p move.header := by
  rw [moved, List.flatMap_singleton]

@[simp] theorem countP_message_moves (rows : List QueueMessage) (instrument counted : Instrument)
    (p : Header → Bool) :
    (rows.map (·.move instrument)).countP
        (fun move => move.instrument = counted && p move.header) =
      if instrument = counted then rows.countP (fun m => p m.header) else 0 := by
  rw [List.countP_map]
  split
  · exact List.countP_congr fun m _ => by simp [QueueMessage.move, *]
  · exact List.countP_eq_zero.mpr fun m _ => by simp [QueueMessage.move, *]

@[simp] theorem countP_deadLetter_moves (rows : List QueueDeadLetterMessage)
    (instrument counted : Instrument) (p : Header → Bool) :
    (rows.map (·.move instrument)).countP
        (fun move => move.instrument = counted && p move.header) =
      if instrument = counted then rows.countP (fun d => p d.header) else 0 := by
  rw [List.countP_map]
  split
  · exact List.countP_congr fun d _ => by simp [QueueDeadLetterMessage.move, *]
  · exact List.countP_eq_zero.mpr fun d _ => by simp [QueueDeadLetterMessage.move, *]

/-! ## One event -/

variable {queues : List QueueRow} {db db' : Database} {now : Int} {op : Operation}
  {response : Response}

/-- What no statement changes. -/
theorem Effect.header_kept (h : db.Valid) (heffect : Effect queues db now op response db') :
    ∀ m ∈ db.queueMessage, ∀ m' ∈ db'.queueMessage, m'.id = m.id →
      m'.header = m.header := by
  intro m hm m' hm' hid
  cases heffect.origin h hm' with
  | kept hkept => rw [eq_of_key_eq h.messages.ids hkept hm hid]
  | enqueued hfresh => exact absurd hid.symm (hfresh m hm)
  | leased _ _ hkept => rw [← eq_of_key_eq h.messages.ids hkept hm hid]; rfl

/-- **The messages balance**: what is in one state of the table only has come or gone. -/
theorem Effect.message_balance (h : db.Valid) (heffect : Effect queues db now op response db')
    (h' : db'.Valid) (p : Header → Bool) :
    db'.queueMessage.countP (fun m => p m.header) +
        (removedMessages db db').countP (fun m => p m.header) =
      db.queueMessage.countP (fun m => p m.header) +
        (removedMessages db' db).countP (fun m => p m.header) :=
  countP_removedRows h.messages.ids h'.messages.ids (fun m => p m.header) fun m hm m' hm' hid => by
    rw [heffect.header_kept h m hm m' hm' hid]

/-- Only an enqueue brings a message in. -/
theorem Effect.message_added (h : db.Valid) (heffect : Effect queues db now op response db')
    (hop : op.instrument ≠ some .messagesEnqueued) : removedMessages db' db = [] := by
  rw [List.eq_nil_iff_forall_not_mem]
  intro m' hm'
  obtain ⟨hm', hnew⟩ := mem_removedRows.mp hm'
  rcases heffect.message_id h hm' with hid | ⟨m, hm, hid⟩
  · cases op <;> simp [Operation.enqueuedId, Operation.instrument] at hid hop
  · exact hnew m hm hid

/-- Only three operations take messages out of the message table. -/
theorem Effect.message_removed (h : db.Valid) (heffect : Effect queues db now op response db')
    (hop : op.instrument = none ∨ op.instrument = some .messagesEnqueued ∨
      op.instrument = some .messagesPurged) : removedMessages db db' = [] := by
  rw [List.eq_nil_iff_forall_not_mem]
  intro m hm
  obtain ⟨hm, hgone⟩ := mem_removedRows.mp hm
  cases heffect.exit h hm hgone <;> simp [Operation.instrument] at hop

/-- Only a purge takes messages out of the archive. -/
theorem Effect.deadLetter_removed (h : db.Valid) (heffect : Effect queues db now op response db')
    (hop : op.instrument ≠ some .messagesPurged) : removedDeadLetters db db' = [] := by
  rw [List.eq_nil_iff_forall_not_mem]
  intro d hd
  obtain ⟨hd, hgone⟩ := mem_removedRows.mp hd
  obtain ⟨_, _, _, rfl, -⟩ := heffect.deadLetter_exit h hd fun hd' => hgone d hd' rfl
  simp [Operation.instrument] at hop

/-- A dequeue archives the messages that it takes out of the message table. -/
theorem Effect.archives (h : db.Valid) {queueId receiptHandle : Uuid}
    (heffect : Effect queues db now (.dequeueMessage queueId receiptHandle) response db')
    (p : Header → Bool) :
    db'.queueDeadLetterMessage.countP (fun d => p d.header) =
      db.queueDeadLetterMessage.countP (fun d => p d.header) +
        (removedMessages db db').countP (fun m => p m.header) := by
  cases heffect with
  | failed | queueNotFound =>
    rw [removedMessages, removedRows_self]
    rfl
  | @dequeued _ _ queue exhausted deleted candidate stored outcome shards hqueue hchecked hid hnodup
      hexhausted hcandidate hdeleted hstored houtcome =>
    have hremoved : (removedRows (·.id) db.queueMessage (dequeuedMessages receiptHandle now
        queue.visibilityTimeoutSeconds (exhausted.map (·.id)) (candidate.map (·.id))
        db.queueMessage)).Perm exhausted := by
      rw [removedRows_eq (exhausted.map (·.id))]
      · exact filter_mem_keys_perm h.messages.ids (fun m hm => (hexhausted m hm).1) hnodup
      · exact fun m hm hmem => ⟨_, mem_dequeuedMessages.mpr ⟨m, hm, hmem, rfl⟩, by split <;> rfl⟩
      · intro m' hm'
        obtain ⟨m, -, hmem, rfl⟩ := mem_dequeuedMessages.mp hm'
        split <;> exact hmem
    have hheaders : deleted.map (·.header) = stored.map (·.header) := by
      clear hdeleted
      induction hstored with
      | nil => rfl
      | @cons m d deleted stored hd _ ih =>
        obtain ⟨delivered, -, rfl⟩ := deadLetter_eq_ok.mp hd
        rw [List.map_cons, List.map_cons, ih]
        rfl
    show (db.queueDeadLetterMessage ++ stored).countP _ = _
    rw [List.countP_append, removedMessages, hremoved.countP_eq, ← hdeleted.countP_eq]
    congr 1
    have hcount := congrArg (List.countP p) hheaders
    rw [List.countP_map, List.countP_map] at hcount
    exact hcount.symm

/-- **The archive balances**: dequeues fill it and purges empty it. -/
theorem Effect.archive_balance (h : db.Valid) (heffect : Effect queues db now op response db')
    (h' : db'.Valid) (p : Header → Bool) :
    db'.queueDeadLetterMessage.countP (fun d => p d.header) +
        (removedDeadLetters db db').countP (fun d => p d.header) =
      db.queueDeadLetterMessage.countP (fun d => p d.header) +
        if op.instrument = some .messagesDeadLettered then
          (removedMessages db db').countP (fun m => p m.header) else 0 := by
  cases op with
  | dequeueMessage queueId receiptHandle =>
    rw [heffect.deadLetter_removed h (by simp [Operation.instrument]), heffect.archives h p]
    rfl
  | purgeDeadLetterMessages retentionSeconds batchSize =>
    have hold : ∀ d ∈ db'.queueDeadLetterMessage, d ∈ db.queueDeadLetterMessage := by
      intro d hd
      cases heffect.deadLetter_origin hd with
      | kept hd => exact hd
    have hadded : removedDeadLetters db' db = [] := by
      rw [List.eq_nil_iff_forall_not_mem]
      intro d hd
      obtain ⟨hd, hnew⟩ := mem_removedRows.mp hd
      exact hnew d (hold d hd) rfl
    have hbalance := countP_removedRows h.deadLetterIds h'.deadLetterIds (fun d => p d.header)
      fun d hd d' hd' hid => by rw [eq_of_key_eq h.deadLetterIds (hold d' hd') hd hid]
    rw [show removedRows (·.id) db'.queueDeadLetterMessage db.queueDeadLetterMessage = []
      from hadded] at hbalance
    exact hbalance
  | _ =>
    rw [heffect.deadLetter_removed h (by simp [Operation.instrument])]
    cases heffect <;> rfl

/-! ## The balance of a trace -/

variable {events : List Event}

/-- **The ledger balances**: what has come in has gone out in one of three ways or is there, and
    what has been archived has been purged or is there. -/
structure Balanced (events : List Event) (db : Database) (p : Header → Bool) : Prop where
  messages : moved events .messagesEnqueued p =
    moved events .messagesAcknowledged p + moved events .messagesDeadLettered p +
      moved events .messagesExpired p + db.queueMessage.countP fun m => p m.header
  archive : moved events .messagesDeadLettered p =
    moved events .messagesPurged p + db.queueDeadLetterMessage.countP fun d => p d.header

theorem Trace.balanced (trace : Trace events db) (p : Header → Bool) : Balanced events db p := by
  induction trace with
  | start => exact ⟨rfl, rfl⟩
  | draw trace hseq ih => exact ⟨ih.messages, ih.archive⟩
  | @event events e queues trace hfresh hqueues heffect hvalid ih =>
    have hmessages := heffect.message_balance trace.valid hvalid p
    have harchive := heffect.archive_balance trace.valid hvalid p
    have hadded := heffect.message_added trace.valid
    have hremoved := heffect.message_removed trace.valid
    have hpurged := heffect.deadLetter_removed trace.valid
    obtain ⟨ihmessages, iharchive⟩ := ih
    -- the event has moved messages of one kind: the other differences of its tables are empty
    cases hi : e.op.instrument with
    | none =>
      rw [hadded (by simp [hi]), hremoved (Or.inl hi)] at hmessages
      rw [hpurged (by simp [hi]), hi] at harchive
      constructor <;> simp [moved_append, moved_singleton, Event.moves, hi, -List.countP_map] at * <;> omega
    | some instrument =>
      cases instrument with
      | messagesEnqueued =>
        rw [hremoved (Or.inr (Or.inl hi))] at hmessages
        rw [hpurged (by simp [hi]), hi] at harchive
        constructor <;> simp [moved_append, moved_singleton, Event.moves, hi, -List.countP_map] at * <;> omega
      | messagesPurged =>
        rw [hadded (by simp [hi]), hremoved (Or.inr (Or.inr hi))] at hmessages
        rw [hi] at harchive
        constructor <;> simp [moved_append, moved_singleton, Event.moves, hi, -List.countP_map] at * <;> omega
      | messagesAcknowledged | messagesDeadLettered | messagesExpired =>
        rw [hadded (by simp [hi])] at hmessages
        rw [hpurged (by simp [hi]), hi] at harchive
        constructor <;> simp [moved_append, moved_singleton, Event.moves, hi, -List.countP_map] at * <;> omega

/-- **The books balance.**  In histories with fresh message ids and in every interleaving of
    transactions, and for any choice of messages by the columns that no statement changes: the
    messages that were enqueued are those that were acknowledged, archived, expired or are there,
    and those that were archived were purged or are in the archive. -/
theorem ledger_balances (order : TriggerOrder) :
    (∀ calls, FreshIds calls → ∀ p,
      Balanced (history order .empty calls) (finalDatabase order .empty calls) p) ∧
    ∀ s, Reachable order s → ∀ p, Balanced s.log s.db p :=
  ⟨fun _ hfresh => (Trace.of_calls order hfresh).balanced, fun _ hs => (Trace.of_log hs).balanced⟩

/-- The message of `purgedOrder` has been enqueued, archived and purged, once each. -/
theorem ledger_balances_purgedOrder :
    [Instrument.messagesEnqueued, .messagesDeadLettered, .messagesPurged].map (fun instrument =>
      moved (history .deleteFirst .empty purgedOrder) instrument fun header => header.queueId = 1) =
        [1, 1, 1] ∧
    Balanced (history .deleteFirst .empty purgedOrder) (finalDatabase .deleteFirst .empty purgedOrder)
      (fun header => header.queueId = 1) :=
  ⟨by decide +kernel, (ledger_balances .deleteFirst).1 purgedOrder (by decide) _⟩

end Retsu
