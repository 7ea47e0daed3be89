/-
  The queue metrics against the ledger.

  Every message that an event moves belongs to one series of one counter (`Move.series`).  What a
  task records of its response is what the event has moved, series by series; so what all processes
  have recorded together is the ledger of the log, short of the transactions whose responses nobody
  has taken: the counters lag behind and never run ahead.
-/
import Retsu.Ledger
import Retsu.ServiceInvariant

namespace Retsu

open Relational Concurrency UseCases Program

/-! ## The series of a move -/

/-- The name of a queue of the table. -/
def nameIn (queues : List QueueRow) (queueId : Uuid) : String :=
  ((queues.find? fun q => q.id = queueId).map (·.name)).getD ""

theorem nameIn_eq {queues : List QueueRow} (hids : (queues.map (·.id)).Nodup) {q : QueueRow}
    (hq : q ∈ queues) : nameIn queues q.id = q.name := by
  rw [nameIn, (find?_key_eq_some hids).mpr ⟨hq, rfl⟩]
  rfl

/-- The label of a stored priority. -/
def priorityLabel (rank : Int) : String := ((MessagePriority.fromRank rank).map (·.asStr)).getD ""

theorem priorityLabel_rank (p : MessagePriority) : priorityLabel p.rank = p.asStr := by
  rw [priorityLabel, MessagePriority.fromRank_rank]
  rfl

def deliveryHistory (deliveryAttempts : Int) : String :=
  if deliveryAttempts = 0 then "never_delivered" else "previously_delivered"

/-- The series that counts a move. -/
def Move.series (queues : List QueueRow) (move : Move) : Series :=
  let queueName := ("queue.name", nameIn queues move.header.queueId)
  match move.instrument with
  | .messagesEnqueued =>
    ⟨.messagesEnqueued, [queueName, ("message.priority", priorityLabel move.header.priority)]⟩
  | .messagesExpired =>
    ⟨.messagesExpired, [queueName, ("message.delivery_history",
      deliveryHistory move.deliveryAttempts)]⟩
  | instrument => ⟨instrument, [queueName]⟩

/-- How many messages of a series an event has moved. -/
def Event.counts (e : Event) (series : Series) : Nat :=
  e.moves.countP fun move => move.series e.after.queue = series

/-! ## What is recorded of an event -/

/-- What a counter shows for a series. -/
def shown (recorded : List Measurement) (series : Series) : Nat :=
  ((recorded.filter fun measurement => measurement.1 = series).map Prod.snd).sum

@[simp] theorem shown_nil (k : Series) : shown [] k = 0 := rfl

theorem shown_append (recorded more : List Measurement) (k : Series) :
    shown (recorded ++ more) k = shown recorded k + shown more k := by simp [shown]

theorem shown_flatMap {α : Type} (record : α → List Measurement) (rows : List α) (k : Series) :
    shown (rows.flatMap record) k = (rows.map fun a => shown (record a) k).sum := by
  induction rows with
  | nil => rfl
  | cons a rows ih => rw [List.flatMap_cons, shown_append, ih, List.map_cons, List.sum_cons]

theorem shown_singleton (series k : Series) (count : Nat) :
    shown [(series, count)] k = if series = k then count else 0 := by
  by_cases h : series = k <;> simp [shown, h]

/-- A count of zero is not missed. -/
theorem shown_addUnlessZero (series k : Series) (count : Nat) :
    shown (addUnlessZero series count) k = if series = k then count else 0 := by
  rw [addUnlessZero]
  by_cases h : count = 0
  · rw [if_pos h, shown_nil, h, ite_self]
  · rw [if_neg h, shown_singleton]

theorem countP_move (queues : List QueueRow) (move : Move) (k : Series) :
    [move].countP (fun move => move.series queues = k) =
      if move.series queues = k then 1 else 0 := by
  by_cases h : move.series queues = k <;> simp [h]

theorem countP_const {α : Type} (rows : List α) (c : Prop) [Decidable c] :
    rows.countP (fun _ => decide c) = if c then rows.length else 0 := by
  by_cases h : c <;> simp [h]

/-- The join gives every deleted row the name of its queue. -/
theorem joinQueueName_eq {α : Type} {queues : List QueueRow} {queueId : α → Uuid}
    {deleted : List α} (hids : (queues.map (·.id)).Nodup)
    (hqueue : ∀ m ∈ deleted, ∃ q ∈ queues, q.id = queueId m) :
    joinQueueName queues queueId deleted = deleted.map fun m => (nameIn queues (queueId m), m) := by
  induction deleted with
  | nil => rfl
  | cons m deleted ih =>
    obtain ⟨q, hq, hid⟩ := hqueue m List.mem_cons_self
    have hrest := ih fun m' hm' => hqueue m' (List.mem_cons_of_mem m hm')
    rw [joinQueueName] at hrest ⊢
    rw [List.flatMap_cons, hrest, List.map_cons, ← hid, filter_key_eq hids hq, nameIn_eq hids hq]
    rfl

section Recorded

variable {queues : List QueueRow} {k : Series}

/-- The two histories of a group are its rows. -/
theorem countP_histories {name : String} {group : List (String × QueueMessage)}
    (hname : ∀ e ∈ group, e.1 = name) (hattempts : ∀ e ∈ group, 0 ≤ e.2.deliveryAttempts) :
    (if Series.mk .messagesExpired [("queue.name", name),
        ("message.delivery_history", "never_delivered")] = k then
        group.countP fun e => e.2.deliveryAttempts = 0 else 0) +
      (if Series.mk .messagesExpired [("queue.name", name),
        ("message.delivery_history", "previously_delivered")] = k then
        group.countP fun e => 0 < e.2.deliveryAttempts else 0) =
      group.countP fun e => Series.mk .messagesExpired [("queue.name", e.1),
        ("message.delivery_history", deliveryHistory e.2.deliveryAttempts)] = k := by
  induction group with
  | nil => simp
  | cons e group ih =>
    obtain rfl := hname e List.mem_cons_self
    have hrest := ih (fun e' he' => hname e' (List.mem_cons_of_mem e he'))
      fun e' he' => hattempts e' (List.mem_cons_of_mem e he')
    rw [List.countP_cons, List.countP_cons, List.countP_cons, ← hrest]
    rcases (hattempts e List.mem_cons_self).eq_or_lt with hnone | hsome
    · rw [deliveryHistory, if_pos hnone.symm]
      simp only [← hnone, lt_irrefl, decide_true, decide_false, decide_eq_true_eq,
        Bool.false_eq_true, if_true, if_false, Nat.add_zero]
      split_ifs <;> omega
    · rw [deliveryHistory, if_neg hsome.ne']
      simp only [hsome, hsome.ne', decide_true, decide_false, decide_eq_true_eq,
        Bool.false_eq_true, if_true, if_false, Nat.add_zero]
      split_ifs <;> omega

/-- **What the cleanup's summary adds is what was deleted.** -/
theorem shown_expiredMeasurements {deleted : List QueueMessage}
    (hids : (queues.map (·.id)).Nodup)
    (hqueue : ∀ m ∈ deleted, ∃ q ∈ queues, q.id = m.queueId)
    (hattempts : ∀ m ∈ deleted, 0 ≤ m.deliveryAttempts) :
    shown (expiredMeasurements (expiredSummary queues deleted)) k =
      (deleted.map (·.move .messagesExpired)).countP fun move => move.series queues = k := by
  rw [List.countP_map]
  calc shown (expiredMeasurements (expiredSummary queues deleted)) k
      = ((groupKeys Prod.fst (joinQueueName queues (·.queueId) deleted)).map fun name =>
          ((joinQueueName queues (·.queueId) deleted).filter fun e => e.1 = name).countP
            fun e => Series.mk .messagesExpired [("queue.name", e.1), ("message.delivery_history",
              deliveryHistory e.2.deliveryAttempts)] = k).sum := by
        rw [expiredMeasurements, shown_flatMap, expiredSummary, processExpiredMessagesRows,
          aggregate, List.map_map, List.map_map]
        refine congrArg List.sum (List.map_congr_left fun name _ => ?_)
        rw [← @countP_histories k name]
        · show shown (messagesExpired _ _ _ ++ messagesExpired _ _ _) k = _
          rw [shown_append, messagesExpired, messagesExpired, shown_addUnlessZero,
            shown_addUnlessZero]
          rfl
        · exact fun e he => of_decide_eq_true (List.mem_filter.mp he).2
        · intro e he
          have hmem := (List.mem_filter.mp he).1
          rw [joinQueueName_eq hids hqueue] at hmem
          obtain ⟨m, hm, rfl⟩ := List.mem_map.mp hmem
          exact hattempts m hm
    _ = (joinQueueName queues (·.queueId) deleted).countP fun e =>
          Series.mk .messagesExpired [("queue.name", e.1), ("message.delivery_history",
            deliveryHistory e.2.deliveryAttempts)] = k := sum_aggregate_countP _ _ _
    _ = _ := by
        rw [joinQueueName_eq hids hqueue, List.countP_map]
        rfl

/-- **What the purge's summary adds is what was deleted.** -/
theorem shown_purgedMeasurements {deleted : List QueueDeadLetterMessage}
    (hids : (queues.map (·.id)).Nodup)
    (hqueue : ∀ d ∈ deleted, ∃ q ∈ queues, q.id = d.queueId) :
    shown (purgedMeasurements (purgedSummary queues deleted)) k =
      (deleted.map (·.move .messagesPurged)).countP fun move => move.series queues = k := by
  rw [List.countP_map]
  calc shown (purgedMeasurements (purgedSummary queues deleted)) k
      = ((groupKeys Prod.fst (joinQueueName queues (·.queueId) deleted)).map fun name =>
          ((joinQueueName queues (·.queueId) deleted).filter fun e => e.1 = name).countP
            fun e => Series.mk .messagesPurged [("queue.name", e.1)] = k).sum := by
        rw [purgedMeasurements, shown_flatMap, purgedSummary, purgeDeadLetterMessagesRows,
          aggregate, List.map_map, List.map_map]
        refine congrArg List.sum (List.map_congr_left fun name _ => ?_)
        show shown (messagesPurged _ _) k = _
        rw [messagesPurged, shown_addUnlessZero]
        have hgroup : ((joinQueueName queues (·.queueId) deleted).filter fun e => e.1 = name).countP
            (fun e => Series.mk .messagesPurged [("queue.name", e.1)] = k) =
            ((joinQueueName queues (·.queueId) deleted).filter fun e => e.1 = name).countP
              fun _ => Series.mk .messagesPurged [("queue.name", name)] = k :=
          List.countP_congr fun e he => by rw [of_decide_eq_true (List.mem_filter.mp he).2]
        rw [hgroup, countP_const]
        rfl
    _ = (joinQueueName queues (·.queueId) deleted).countP fun e =>
          Series.mk .messagesPurged [("queue.name", e.1)] = k := sum_aggregate_countP _ _ _
    _ = _ := by
        rw [joinQueueName_eq hids hqueue, List.countP_map]
        rfl

end Recorded

/-! ## One event -/

/-- What has been added to a table. -/
theorem removedRows_append {α κ : Type} [DecidableEq κ] {key : α → κ} {rows more : List α}
    (h : ∀ b ∈ rows, ∀ a ∈ more, key b ≠ key a) : removedRows key (rows ++ more) rows = more := by
  rw [removedRows, List.filter_append]
  have hold : rows.filter (fun a => !rows.any fun b => key b = key a) = [] := removedRows_self
  have hnew : more.filter (fun a => !rows.any fun b => key b = key a) = more :=
    List.filter_eq_self.mpr fun a ha => by simpa using fun b hb => h b hb a ha
  rw [hold, hnew, List.nil_append]

/-- An event of a trace: valid tables before and after, and an effect between them. -/
structure Event.Sound (e : Event) : Prop where
  before : e.before.Valid
  after : e.after.Valid
  effect : ∃ queues, (∀ q ∈ queues, ∃ q' ∈ e.before.queue, q'.id = q.id ∧ q'.name = q.name) ∧
    Effect queues e.before e.now e.op e.response e.after

theorem Trace.sound {events : List Event} {db : Database} (trace : Trace events db) {e : Event}
    (he : e ∈ events) : e.Sound := by
  obtain ⟨past, future, rfl⟩ := List.append_of_mem he
  obtain ⟨hbefore, hafter, -, queues, hqueues, heffect⟩ := trace.split
  exact ⟨hbefore.valid, hafter.valid, queues, hqueues, heffect⟩

/-- The queues of an event are there at the end, under their names. -/
theorem Trace.names {events : List Event} {db : Database} (trace : Trace events db) {e : Event}
    (he : e ∈ events) : ∀ q ∈ e.after.queue, ∃ q' ∈ db.queue, q'.id = q.id ∧ q'.name = q.name := by
  induction trace with
  | start => simp at he
  | draw trace hseq ih => exact ih he
  | @event events last queues trace hfresh hqueues heffect hvalid ih =>
    intro q hq
    rcases List.mem_append.mp he with he | he
    · obtain ⟨q', hq', hid, hname⟩ := ih he q hq
      obtain ⟨q'', hq'', hid', hname'⟩ := heffect.queue_kept trace.valid q' hq'
      exact ⟨q'', hq'', hid'.trans hid, hname'.trans hname⟩
    · obtain rfl := List.mem_singleton.mp he
      exact ⟨q, hq, rfl, rfl⟩

namespace Event.Sound

variable {e : Event}

/-- A failed operation moves nothing. -/
theorem counts_failed (h : e.Sound) {error : RepositoryError} (hresponse : e.response = .failed error)
    (k : Series) : e.counts k = 0 := by
  obtain ⟨before, now, op, response, after⟩ := e
  obtain ⟨queues, -, heffect⟩ := h.effect
  obtain rfl : response = .failed error := hresponse
  dsimp only at heffect
  cases heffect with
  | failed hseq =>
    have hmessages : removedRows (·.id) before.queueMessage before.queueMessage = [] :=
      removedRows_self
    have hdead : removedRows (·.id) before.queueDeadLetterMessage before.queueDeadLetterMessage = [] :=
      removedRows_self
    cases op <;> simp [counts, moves, Operation.instrument, removedMessages, removedDeadLetters,
      hmessages, hdead]

/-- An operation on the queue table moves nothing. -/
theorem counts_none (_ : e.Sound) (hop : e.op.instrument = none) (k : Series) : e.counts k = 0 := by
  rw [counts, moves, hop]
  rfl

theorem counts_enqueued (h : e.Sound) {queueId : Uuid} {message : Message} {ttl : UInt32}
    (hop : e.op = .enqueueMessage queueId message ttl) (hresponse : e.response = .enqueueMessage)
    {name : String} (hname : ∀ q ∈ e.after.queue, q.id = queueId → q.name = name) (k : Series) :
    e.counts k = shown (messageEnqueued name message.priority.asStr) k := by
  obtain ⟨before, now, op, response, after⟩ := e
  obtain ⟨queues, -, heffect⟩ := h.effect
  obtain rfl : op = _ := hop
  obtain rfl : response = _ := hresponse
  dsimp only at heffect
  cases heffect with
  | @enqueued _ _ _ order seq shards hqueue hid hchecked hseq =>
    obtain ⟨q, hq, rfl⟩ := hqueue
    have hadded : removedRows (·.id) (before.queueMessage ++ [message.row q.id ttl order now])
        before.queueMessage = [message.row q.id ttl order now] :=
      removedRows_append fun m hm m' hm' => by
        rw [List.mem_singleton.mp hm']
        exact hid m hm
    rw [counts, moves]
    show ((removedRows (·.id) (before.queueMessage ++ [message.row q.id ttl order now])
      before.queueMessage).map _).countP _ = _
    rw [hadded, messageEnqueued, shown_singleton, ← hname q hq rfl, ← nameIn_eq h.before.queueIds hq,
      ← priorityLabel_rank]
    exact countP_move _ _ k

theorem counts_acknowledged (h : e.Sound) {queueId messageId receiptHandle : Uuid}
    (hop : e.op = .acknowledgeMessage queueId messageId receiptHandle)
    (hresponse : e.response = .acknowledgeMessage .acknowledged) {name : String}
    (hname : ∀ q ∈ e.after.queue, q.id = queueId → q.name = name) (k : Series) :
    e.counts k = shown (messageAcknowledged name) k := by
  obtain ⟨before, now, op, response, after⟩ := e
  obtain ⟨queues, -, heffect⟩ := h.effect
  obtain rfl : op = _ := hop
  obtain rfl : response = _ := hresponse
  dsimp only at heffect
  cases heffect with
  | @acknowledged _ _ _ m shards hm hack =>
    simp only [isAcknowledgeable, decide_eq_true_eq] at hack
    obtain ⟨hid, hqueue, -⟩ := hack
    obtain ⟨q, hq, hqid⟩ := h.before.messages.queue m hm
    have hremoved : removedRows (·.id) before.queueMessage
        (before.queueMessage.filter fun m => m.id ≠ messageId) = [m] := by
      rw [removedRows_eq [messageId], ← filter_key_eq h.before.messages.ids hm, hid]
      · simp
      · intro m' hm' hne
        exact ⟨m', List.mem_filter.mpr ⟨hm', by simpa using hne⟩, rfl⟩
      · intro m' hm'
        simpa using (List.mem_filter.mp hm').2
    rw [counts, moves]
    show ((removedRows (·.id) before.queueMessage
      (before.queueMessage.filter fun m => m.id ≠ messageId)).map _).countP _ = _
    rw [hremoved, messageAcknowledged, shown_singleton,
      ← hname q hq (hqid.trans hqueue), ← nameIn_eq h.before.queueIds hq, hqid]
    exact countP_move _ _ k

theorem counts_unchanged (h : e.Sound) {queueId messageId receiptHandle : Uuid}
    (hop : e.op = .acknowledgeMessage queueId messageId receiptHandle)
    (hresponse : e.response = .acknowledgeMessage .unchanged) (k : Series) : e.counts k = 0 := by
  obtain ⟨before, now, op, response, after⟩ := e
  obtain ⟨queues, -, heffect⟩ := h.effect
  obtain rfl : op = _ := hop
  obtain rfl : response = _ := hresponse
  dsimp only at heffect
  cases heffect with
  | unchanged =>
    have hremoved : removedRows (·.id) before.queueMessage before.queueMessage = [] :=
      removedRows_self
    simp [counts, moves, Operation.instrument, removedMessages, hremoved]

/-- A dequeue moves messages of its queue, as many as it reports. -/
theorem counts_dequeued (h : e.Sound) {queueId receiptHandle : Uuid}
    {outcome : DequeueMessageOutcome} (hop : e.op = .dequeueMessage queueId receiptHandle)
    (hresponse : e.response = .dequeueMessage outcome) (k : Series) :
    e.counts k = if Series.mk .messagesDeadLettered [("queue.name", nameIn e.after.queue queueId)] = k
      then outcome.deadLettered else 0 := by
  obtain ⟨before, now, op, response, after⟩ := e
  obtain ⟨queues, -, heffect⟩ := h.effect
  obtain rfl : op = _ := hop
  obtain rfl : response = _ := hresponse
  dsimp only at heffect ⊢
  rw [(heffect.dequeue_report h.before).1, counts, moves]
  show ((removedMessages before after).map _).countP _ = _
  rw [List.countP_map, ← countP_const]
  refine List.countP_congr fun m hm => ?_
  obtain ⟨hm, hgone⟩ := mem_removedRows.mp hm
  have hqueue : m.queueId = queueId := by
    cases heffect.exit h.before hm hgone with
    | deadLettered _ hexhausted =>
      simp only [isDeadLetterCandidate, decide_eq_true_eq] at hexhausted
      exact hexhausted.1.symm
  simp [Move.series, QueueMessage.move, QueueMessage.header, hqueue]

theorem counts_expired (h : e.Sound) {batchSize : UInt32} {summary : ExpiredMessagesCleanupSummary}
    (hop : e.op = .processExpiredMessages batchSize)
    (hresponse : e.response = .processExpiredMessages summary) (k : Series) :
    e.counts k = shown (expiredMeasurements summary) k := by
  obtain ⟨before, now, op, response, after⟩ := e
  obtain ⟨queues, -, heffect⟩ := h.effect
  obtain rfl : op = _ := hop
  obtain rfl : response = _ := hresponse
  dsimp only at heffect
  cases heffect with
  | @expired _ expired _ shards hexpired hsummary =>
    rw [decodeExpired_rows] at hsummary
    obtain rfl := Except.ok.inj hsummary
    have hmem : ∀ m ∈ before.queueMessage.filter fun m => m.id ∈ expired.map (·.id),
        m ∈ before.queueMessage := fun m hm => (List.mem_filter.mp hm).1
    rw [counts, moves]
    show ((removedRows (·.id) before.queueMessage (before.queueMessage.filter fun m =>
      m.id ∉ expired.map (·.id))).map _).countP _ = _
    rw [removedRows_filter]
    exact (shown_expiredMeasurements h.before.queueIds
      (fun m hm => h.before.messages.queue m (hmem m hm)) fun m hm =>
        (QueueMessage.checked_iff.mp (h.before.messages.checked m (hmem m hm))).2.1).symm

theorem counts_purged (h : e.Sound) {retentionSeconds : Int} {batchSize : UInt32}
    {summary : DeadLetterMessagesPurgeSummary}
    (hop : e.op = .purgeDeadLetterMessages retentionSeconds batchSize)
    (hresponse : e.response = .purgeDeadLetterMessages summary) (k : Series) :
    e.counts k = shown (purgedMeasurements summary) k := by
  obtain ⟨before, now, op, response, after⟩ := e
  obtain ⟨queues, -, heffect⟩ := h.effect
  obtain rfl : op = _ := hop
  obtain rfl : response = _ := hresponse
  dsimp only at heffect
  cases heffect with
  | @purged _ _ purged _ hpurged hsummary =>
    rw [decodePurged_rows] at hsummary
    obtain rfl := Except.ok.inj hsummary
    rw [counts, moves]
    show ((removedRows (·.id) before.queueDeadLetterMessage
      (before.queueDeadLetterMessage.filter fun d => d.id ∉ purged.map (·.id))).map _).countP _ = _
    rw [removedRows_filter]
    exact (shown_purgedMeasurements h.before.queueIds fun d hd =>
      h.before.deadLetterQueue d (List.mem_filter.mp hd).1).symm

end Event.Sound

/-! ## One task -/

/-- What has been read of queues agrees with the names in a table. -/
structure NamesAgree (past : Exchanged) (queues : List QueueRow) : Prop where
  name : ∀ queueId name, ⟨.queueName queueId, .ok (some name)⟩ ∈ past →
    ∀ q ∈ queues, q.id = queueId → q.name = name
  details : ∀ queueId details, ⟨.queueDetails queueId, .ok (some details)⟩ ∈ past →
    ∀ q ∈ queues, q.id = queueId → q.name = details.name

variable {task : Task} {past : Exchanged} {ended : Outcome × List Measurement}

/-- A task that has run nothing records nothing. -/
theorem Task.Ends.silent (h : task.Ends past ended)
    (hran : ∀ op result, ⟨.run op, .ok result⟩ ∉ past) : ended.2 = [] := by
  cases h with
  | refused => rfl
  | createQueue h => cases h <;> rfl
  | updateQueue h => cases h <;> rfl
  | enqueueMessage h =>
    cases h with
    | enqueued => exact absurd (List.mem_cons_of_mem _ List.mem_cons_self) (hran _ _)
    | _ => rfl
  | dequeueMessage h =>
    cases h with
    | empty | dequeued => exact absurd List.mem_cons_self (hran _ _)
    | _ => rfl
  | acknowledgeMessage h =>
    cases h with
    | acknowledged => exact absurd (List.mem_cons_of_mem _ List.mem_cons_self) (hran _ _)
    | _ => rfl
  | processExpiredMessages h =>
    cases h with
    | processed => exact absurd List.mem_cons_self (hran _ _)
    | _ => rfl
  | purgeDeadLetterMessages h =>
    cases h with
    | purged => exact absurd List.mem_cons_self (hran _ _)
    | _ => rfl

/-- What a dequeue reports goes to the series of its queue. -/
theorem Event.Sound.dequeue_name {e : Event} (h : e.Sound) {queueId receiptHandle : Uuid}
    {outcome : DequeueMessageOutcome} (hop : e.op = .dequeueMessage queueId receiptHandle)
    (hresponse : e.response = .dequeueMessage outcome) (hfound : outcome ≠ .queueNotFound) :
    ∃ deadLettered candidate, Delivers (nameIn e.after.queue queueId) receiptHandle deadLettered
      candidate outcome := by
  obtain ⟨before, now, op, response, after⟩ := e
  obtain ⟨queues, hqueues, heffect⟩ := h.effect
  obtain rfl : op = _ := hop
  obtain rfl : response = _ := hresponse
  have hkept := heffect.queue_kept h.before
  have hids := h.after.queueIds
  dsimp only at heffect hqueues hkept hids ⊢
  cases heffect with
  | queueNotFound => exact absurd rfl hfound
  | @dequeued _ _ queue exhausted _ candidate _ _ _ hqueue _ hid _ _ _ _ _ houtcome =>
    obtain ⟨q, hq, hqid, hqname⟩ := hqueues queue hqueue
    have hname : nameIn before.queue queueId = queue.name := by
      rw [← hid, ← hqid, nameIn_eq hids hq, hqname]
    exact ⟨exhausted.length, candidate, hname ▸ houtcome⟩

/-- **A task records what its event has moved.** -/
theorem Task.Ends.shown_eq (h : task.Ends past ended) {op : Operation} {result : op.Result}
    (hran : ⟨.run op, .ok result⟩ ∈ past) {e : Event} (hsound : e.Sound) (hop : e.op = op)
    (hresponse : e.response = op.respond result) (hnames : NamesAgree past e.after.queue)
    (k : Series) : shown ended.2 k = e.counts k := by
  cases h with
  | refused => simp at hran
  | createQueue h =>
    cases h with
    | invalid => simp at hran
    | failed => cases List.mem_singleton.mp hran
    | alreadyExists | created =>
      cases List.mem_singleton.mp hran
      exact (hsound.counts_none (hop ▸ rfl) k).symm
  | updateQueue h =>
    cases h with
    | noChanges | invalid => simp at hran
    | failed => cases List.mem_singleton.mp hran
    | notFound | updated =>
      cases List.mem_singleton.mp hran
      exact (hsound.counts_none (hop ▸ rfl) k).symm
  | enqueueMessage h =>
    cases h with
    | invalid => simp at hran
    | unavailable | notFound => cases List.mem_singleton.mp hran
    | failed =>
      rcases List.mem_cons.mp hran with hran | hran
      · cases hran
      · cases List.mem_singleton.mp hran
    | enqueued =>
      rcases List.mem_cons.mp hran with hran | hran
      · cases hran
      · cases List.mem_singleton.mp hran
        exact (hsound.counts_enqueued hop hresponse (hnames.details _ _ List.mem_cons_self) k).symm
  | dequeueMessage h =>
    cases h with
    | failed => cases List.mem_singleton.mp hran
    | notFound =>
      cases List.mem_singleton.mp hran
      rw [hsound.counts_dequeued hop hresponse]
      exact (ite_self 0).symm
    | empty | dequeued =>
      cases List.mem_singleton.mp hran
      rw [hsound.counts_dequeued hop hresponse]
      obtain ⟨deadLettered, candidate, hdelivers⟩ := hsound.dequeue_name hop hresponse (by simp)
      cases hdelivers
      exact shown_addUnlessZero _ k _
  | acknowledgeMessage h =>
    cases h with
    | unavailable | notFound => cases List.mem_singleton.mp hran
    | failed =>
      rcases List.mem_cons.mp hran with hran | hran
      · cases hran
      · cases List.mem_singleton.mp hran
    | acknowledged =>
      rcases List.mem_cons.mp hran with hran | hran
      · cases hran
      · cases List.mem_singleton.mp hran
        exact (hsound.counts_acknowledged hop hresponse (hnames.name _ _ List.mem_cons_self) k).symm
    | unchanged =>
      rcases List.mem_cons.mp hran with hran | hran
      · cases hran
      · cases List.mem_singleton.mp hran
        exact (hsound.counts_unchanged hop hresponse k).symm
  | processExpiredMessages h =>
    cases h with
    | failed => cases List.mem_singleton.mp hran
    | processed =>
      cases List.mem_singleton.mp hran
      exact (hsound.counts_expired hop hresponse k).symm
  | purgeDeadLetterMessages h =>
    cases h with
    | overflow => simp at hran
    | failed => cases List.mem_singleton.mp hran
    | purged =>
      cases List.mem_singleton.mp hran
      exact (hsound.counts_purged hop hresponse k).symm

/-! ## The service -/

/-- One more of the keys is taken: the sum over what is taken grows by what it has. -/
theorem sum_taken {α : Type} {rows : List (Nat × α)} (hnd : (rows.map Prod.fst).Nodup)
    {row : Nat × α} (hrow : row ∈ rows) {taken : List Nat} (hnew : row.1 ∉ taken) (f : α → Nat) :
    ((rows.filter fun r => r.1 ∈ row.1 :: taken).map fun r => f r.2).sum =
      ((rows.filter fun r => r.1 ∈ taken).map fun r => f r.2).sum + f row.2 := by
  induction rows with
  | nil => simp at hrow
  | cons head rows ih =>
    rw [List.map_cons, List.nodup_cons] at hnd
    rcases List.mem_cons.mp hrow with rfl | hrow
    · have hrest : (rows.filter fun r => r.1 ∈ row.1 :: taken) =
          rows.filter fun r => r.1 ∈ taken := by
        refine List.filter_congr fun r hr => ?_
        have hne : r.1 ≠ row.1 := fun heq => hnd.1 (heq ▸ List.mem_map_of_mem hr)
        simp [hne]
      rw [List.filter_cons_of_pos (by simp), List.filter_cons_of_neg (by simpa using hnew), hrest,
        List.map_cons, List.sum_cons, Nat.add_comm]
    · have hne : head.1 ≠ row.1 := fun heq => hnd.1 (heq ▸ List.mem_map_of_mem hrow)
      have hrest := ih hnd.2 hrow
      by_cases htaken : head.1 ∈ taken
      · rw [List.filter_cons_of_pos (by simp [htaken]), List.filter_cons_of_pos (by simpa using htaken),
          List.map_cons, List.map_cons, List.sum_cons, List.sum_cons, hrest, Nat.add_assoc]
      · rw [List.filter_cons_of_neg (by simp [htaken, hne]),
          List.filter_cons_of_neg (by simpa using htaken), hrest]

namespace Service

variable {order : TriggerOrder} {s s' : Service}

/-- A name that has been read is the name that every event has for the queue. -/
theorem Inv.named (h : s.Inv order) {db : Database} (hdb : db ∈ s.past) {queueId : Uuid}
    {name : String} (hname : queueName db queueId = some name) {e : Event}
    (he : e ∈ s.system.log) : ∀ q ∈ e.after.queue, q.id = queueId → q.name = name := by
  intro q hq hid
  obtain ⟨hvalid, hkept⟩ := h.past db hdb
  obtain ⟨row, hfind, hrow⟩ := Option.map_eq_some_iff.mp hname
  obtain ⟨hmem, hrowid⟩ := (find?_key_eq_some hvalid.queueIds).mp hfind
  obtain ⟨q', hq', hid', hname'⟩ := hkept row hmem
  obtain ⟨q'', hq'', hid'', hname''⟩ := (Trace.of_log h.reachable).names he q hq
  have hsame : q' = q'' := eq_of_key_eq h.reachable.inv.valid.queueIds hq' hq''
    (hid'.trans (hrowid.trans (hid.symm.trans hid''.symm)))
  rw [← hname'', ← hsame, hname', hrow]

theorem Inv.namesAgree (h : s.Inv order) {past : Exchanged} {sent : Option Nat}
    (hwitnessed : ∀ x ∈ past, s.Witnessed sent x) {e : Event} (he : e ∈ s.system.log) : NamesAgree past e.after.queue where
  name := by
    intro queueId name hmem
    obtain ⟨db, hdb, hname⟩ := hwitnessed _ hmem
    exact h.named hdb hname.symm he
  details := by
    intro queueId details hmem
    obtain ⟨db, hdb, hdetails⟩ := hwitnessed _ hmem
    have hvalid := (h.past db hdb).1
    rw [queueDetails_eq hvalid] at hdetails
    refine h.named hdb ?_ he
    rw [queueName_eq hvalid, Except.ok.inj hdetails]
    rfl

/-- A thread that has run nothing has recorded nothing. -/
theorem recordedBy_silent {task : Task} {past : Exchanged}
    {program : Awaiting (Outcome × List Measurement)} (hgoes : Goes task.program past program)
    (hran : ∀ op result, ⟨.run op, .ok result⟩ ∉ past) : recordedBy program = [] := by
  have hends := hgoes.conforms task.conforms
  cases program with
  | await q next => rfl
  | done ended => exact Task.Ends.silent hends hran

/-- A thread that asks has run nothing before. -/
theorem Inv.nothingRun (h : s.Inv order) {id : Nat} {thread : Thread}
    (hthread : s.threads id = some thread) {q : Query}
    {next : Answer q → Awaiting (Outcome × List Measurement)}
    (hprogram : thread.program = .await q next) : Exchanged.NothingRun thread.answered := by
  have hends := (h.goes id thread hthread).conforms thread.task.conforms
  rw [hprogram] at hends
  exact (Program.conforms_await.mp hends).1

/-- A thread that goes on with anything but a response has recorded nothing. -/
theorem Inv.resume_silent (h : s.Inv order) {id : Nat} {thread : Thread}
    (hthread : s.threads id = some thread) {q : Query}
    {next : Answer q → Awaiting (Outcome × List Measurement)}
    (hprogram : thread.program = .await q next) {answer : Answer q}
    (hanswer : ∀ op result, (⟨q, answer⟩ : Exchange Query Answer) ≠ ⟨.run op, .ok result⟩) :
    recordedBy (next answer) = [] := by
  have hgoes := h.goes id thread hthread
  rw [hprogram] at hgoes
  refine recordedBy_silent (hgoes.snoc answer) fun op result hmem => ?_
  rcases List.mem_append.mp hmem with hmem | hmem
  · exact h.nothingRun hthread hprogram op _ hmem
  · exact hanswer op result (List.mem_singleton.mp hmem).symm

/-- **What a thread records of its response is what the transaction has moved.** -/
theorem Inv.reply_shown (h : s.Inv order) {id : Nat} {thread : Thread} {op : Operation}
    {next : Answer (.run op) → Awaiting (Outcome × List Measurement)}
    (hthread : s.threads id = some thread) (hprogram : thread.program = .await (.run op) next)
    {c : Nat × Event} (hc : c ∈ s.commits) (hop : c.2.op = op)
    {result : Except RepositoryError op.Result} (hresult : op.result? c.2.response = some result)
    (k : Series) : shown (recordedBy (next (result.mapError .repository))) k = c.2.counts k := by
  have hlog : c.2 ∈ s.system.log := h.log ▸ List.mem_map_of_mem hc
  have hsound := (Trace.of_log h.reachable).sound hlog
  cases result with
  | error e =>
    have hfailed : c.2.response = .failed e := by
      revert hresult
      generalize c.2.response = response
      cases op <;> cases response <;> simp [Operation.result?]
    rw [hsound.counts_failed hfailed, h.resume_silent hthread hprogram]
    · rfl
    · intro op' result' heq
      cases heq
  | ok value =>
    have hgoes := h.goes id thread hthread
    rw [hprogram] at hgoes
    have hgoes := hgoes.snoc (.ok value)
    have hends := hgoes.conforms thread.task.conforms
    rw [List.nil_append] at hends
    have hwitnessed := h.witnessed id thread hthread
    have hran : (⟨.run op, .ok value⟩ : Exchange Query Answer) ∈
        thread.answered ++ [⟨.run op, .ok value⟩] := List.mem_append_right _ List.mem_cons_self
    show shown (recordedBy (next (.ok value))) k = _
    cases hnext : next (.ok value) with
    | await q next' =>
      rw [hnext] at hends
      exact absurd hran ((Program.conforms_await.mp hends).1 op _)
    | done ended =>
      rw [hnext] at hends
      refine Task.Ends.shown_eq hends hran hsound hop (Operation.result?_eq_ok.mp hresult) ?_ k
      have hagree := h.namesAgree hwitnessed hlog
      constructor
      · intro queueId name hmem
        rcases List.mem_append.mp hmem with hmem | hmem
        · exact hagree.name queueId name hmem
        · cases List.mem_singleton.mp hmem
      · intro queueId details hmem
        rcases List.mem_append.mp hmem with hmem | hmem
        · exact hagree.details queueId details hmem
        · cases List.mem_singleton.mp hmem

/-- **The counters show the transactions whose responses have been taken.** -/
theorem Reachable.shown_eq (h : s.Reachable order) (k : Series) :
    shown s.recorded k =
      ((s.commits.filter fun c => c.1 ∈ s.reported).map fun c => c.2.counts k).sum := by
  refine h.invariant (I := fun s => shown s.recorded k =
    ((s.commits.filter fun c => c.1 ∈ s.reported).map fun c => c.2.counts k).sum) rfl
    fun s a s' hrun ih _ hstep => ?_
  have hinv := Reachable.inv hrun
  have hstep := step_cases hstep
  have hinv' := hinv.step hstep
  have hquiet : ∀ {id : Nat} {thread : Thread} {x : Exchange Query Answer}
      {program : Awaiting (Outcome × List Measurement)}, recordedBy program = [] →
      shown (s.resume id thread x program).recorded k = shown s.recorded k := by
    intro id thread x program hsilent
    show shown (s.recorded ++ recordedBy program) k = _
    rw [hsilent, List.append_nil]
  cases hstep with
  | @system a system hstart hstep =>
    have hnew : ((s.afterSystem order a system).commits.filter fun c => c.1 ∈ s.reported) =
        s.commits.filter fun c => c.1 ∈ s.reported := by
      obtain ⟨more, hmore⟩ : ∃ more, (s.afterSystem order a system).commits = s.commits ++ more :=
        ⟨_, rfl⟩
      have htids := hinv'.tids
      rw [hmore, List.map_append, List.nodup_append] at htids
      rw [hmore, List.filter_append, List.append_right_eq_self, List.filter_eq_nil_iff]
      intro c hc hmem
      exact htids.2.2 _ (hinv.reported.2 c.1 (by simpa using hmem)) _ (List.mem_map_of_mem hc) rfl
    show shown s.recorded k = (((s.afterSystem order a system).commits.filter fun c =>
      c.1 ∈ s.reported).map fun c => c.2.counts k).sum
    rw [hnew]
    exact ih
  | @spawn id task hidle =>
    have hsilent : recordedBy task.program = [] := recordedBy_silent .refl (by simp)
    show shown (s.recorded ++ recordedBy task.program) k = _
    rw [hsilent, List.append_nil]
    exact ih
  | readName hthread hdb hprogram =>
    rw [hquiet (hinv.resume_silent hthread hprogram (by simp))]
    exact ih
  | readDetails hthread hdb hprogram =>
    rw [hquiet (hinv.resume_silent hthread hprogram (by simp))]
    exact ih
  | send => exact ih
  | @reply id tid thread t op response result next hthread hsent hprogram ht hphase hresult =>
    obtain ⟨e, he⟩ := hinv.commits tid t response ht hphase
    obtain ⟨u, hu, hop, -, huphase⟩ := hinv.committed _ he
    obtain rfl := Option.some.inj (ht.symm.trans hu)
    obtain rfl := Phase.committed.inj (hphase.symm.trans huphase)
    obtain ⟨hnew, hsame⟩ := hinv.sent_of_waits hthread hsent hprogram ht
    show shown (s.recorded ++ recordedBy _) k =
      ((s.commits.filter fun c => c.1 ∈ tid :: s.reported).map fun c => c.2.counts k).sum
    rw [shown_append, ih, hinv.reply_shown hthread hprogram he (hop.symm.trans hsame) hresult]
    exact (sum_taken hinv.tids he hnew fun e => e.counts k).symm
  | @fail id thread q next hthread hprogram =>
    rw [hquiet (hinv.resume_silent hthread hprogram fun op result heq => by cases heq)]
    exact ih
  | drop => exact ih

end Service

/-- What is taken and what is not make up the whole. -/
theorem sum_taken_add_rest {α : Type} (rows : List (Nat × α)) (taken : List Nat) (f : α → Nat) :
    ((rows.filter fun r => r.1 ∈ taken).map fun r => f r.2).sum +
        ((rows.filter fun r => r.1 ∉ taken).map fun r => f r.2).sum =
      ((rows.map Prod.snd).map f).sum := by
  induction rows with
  | nil => rfl
  | cons row rows ih =>
    by_cases hrow : row.1 ∈ taken <;> simp [hrow] at ih ⊢ <;> omega

/-- **The counters lag behind the ledger by what nobody has taken the response of.**  In every
    interleaving of requests, cleaners and their transactions, with awaits that fail, connections
    that are lost and threads that are dropped anywhere, and with look-ups answered by caches: what
    all processes have recorded for a series, and what was moved by the transactions whose
    responses have not been taken, is together what all committed transactions have moved. -/
theorem counters_lag_behind {order : TriggerOrder} {s : Service} (h : s.Reachable order)
    (k : Series) :
    shown s.recorded k +
        ((s.commits.filter fun c => c.1 ∉ s.reported).map fun c => c.2.counts k).sum =
      (s.system.log.map fun e => e.counts k).sum := by
  rw [h.shown_eq k, ← h.inv.log]
  exact sum_taken_add_rest s.commits s.reported fun e => e.counts k

/-- A thread sends its operation, which runs and commits undisturbed. -/
def committed (id tid : Nat) (visits : List Selection) (counters : Nat) : List ServiceAction :=
  [.send id tid, .system (.snapshot tid)] ++ visits.map (fun v => .system (.visit tid v)) ++
    [.system (.count tid)] ++ List.replicate counters (.system (.lockCounter tid)) ++
    [.system (.commit tid)]

/-- Two messages are enqueued; the client of the second has gone before its response. -/
def lostResponse : List ServiceAction :=
  [.spawn 1 (.request (.createQueue (.ok ⟨"orders", none, none, none⟩)) 1)] ++
    committed 1 1 [] 0 ++ [.reply 1] ++
    [.spawn 2 (.request (.enqueueMessage (.ok ⟨1⟩) (.ok ⟨"first", "HIGH", none⟩)) 7), .read 2 0] ++
    committed 2 2 [] 1 ++ [.reply 2] ++
    [.spawn 3 (.request (.enqueueMessage (.ok ⟨1⟩) (.ok ⟨"second", "HIGH", none⟩)) 8), .read 3 0] ++
    committed 3 3 [] 1 ++ [.drop 3]

def enqueuedOrders : Series :=
  ⟨.messagesEnqueued, [("queue.name", "orders"), ("message.priority", "HIGH")]⟩

/-- One enqueue has been counted and the other has not. -/
theorem counters_lag_behind_lostResponse : ∃ s : Service,
    shown s.recorded enqueuedOrders = 1 ∧
    (s.system.log.map fun e => e.counts enqueuedOrders).sum = 2 ∧
    ((s.commits.filter fun c => c.1 ∉ s.reported).map fun c => c.2.counts enqueuedOrders).sum = 1 := by
  have hrun : (runAllowed (Service.step .deleteFirst) anyAction Service.initial lostResponse).map
      (fun s => (shown s.recorded enqueuedOrders,
        (s.system.log.map fun e => e.counts enqueuedOrders).sum)) = some (1, 2) := by
    decide +kernel
  obtain ⟨s, hs, hseen⟩ := Option.map_eq_some_iff.mp hrun
  obtain ⟨hshown, hlog⟩ := Prod.mk.inj hseen
  refine ⟨s, hshown, hlog, ?_⟩
  have htotal := counters_lag_behind (execution_of_runAllowed hs) enqueuedOrders
  omega

end Retsu
