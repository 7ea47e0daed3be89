/-
  The queue gauges agree with what consumers can do.

  The collector counts physical rows and corrects the counts by two filtered aggregates; a
  dequeue filters rows.  `physicalState_row`, `expiredReady_row` and `timedOutInFlight_row`
  turn the three joins into counts over the message table, `ready_balance` and
  `inFlight_balance` compare the counts message by message, and `collector_agrees` puts them
  together for every state that operations reach.
-/
import Retsu.History
import Retsu.StateCollector

namespace Retsu

open Relational

variable {db : Database} {queue : QueueRow} {now priority : Int}

/-! ## Counts -/

/-- Two pairs of counts agree when they do on every row. -/
theorem countP_balance {α : Type} {rows : List α} {a b c d : α → Bool}
    (h : ∀ r ∈ rows, (if a r then 1 else 0) + (if b r then 1 else 0) =
      (if c r then 1 else 0) + (if d r then 1 else 0)) :
    rows.countP a + rows.countP b = rows.countP c + rows.countP d := by
  induction rows with
  | nil => rfl
  | cons r rows ih =>
    have hr := h r List.mem_cons_self
    have hrest := ih fun r' hr' => h r' (List.mem_cons_of_mem r hr')
    simp only [List.countP_cons]
    omega

/-- The messages of one queue, priority and state. -/
def isInState (queueId : Uuid) (priority : Int) (state : MessageState) (m : QueueMessage) : Bool :=
  m.queueId = queueId ∧ m.priority = priority ∧ m.state = state

/-- The rollup has a row for every message. -/
theorem shardKey_mem (h : db.RollupValid) {m : QueueMessage} (hm : m ∈ db.queueMessage) :
    m.shardKey ∈ db.queuePriorityStateShard.map (·.key) := by
  by_contra hno
  have hnone : findShard db.queuePriorityStateShard m.shardKey = none :=
    findShard_eq_none.mpr fun s hs hk => hno (hk ▸ List.mem_map_of_mem hs)
  have hcounts := h.rollup.stored m.shardKey
  rw [storedCounts, hnone] at hcounts
  have hready := congrArg Prod.fst hcounts
  have hflight := congrArg Prod.snd hcounts
  simp only [tableCounts, Option.map_none, Option.getD_none, Prod.fst_zero, Prod.snd_zero]
    at hready hflight
  cases hstate : m.state with
  | ready =>
    have : 0 < db.queueMessage.countP fun r => r.shardKey = m.shardKey ∧ r.state = .ready :=
      List.countP_pos_iff.mpr ⟨m, hm, by simp [hstate]⟩
    omega
  | inFlight =>
    have : 0 < db.queueMessage.countP fun r => r.shardKey = m.shardKey ∧ r.state = .inFlight :=
      List.countP_pos_iff.mpr ⟨m, hm, by simp [hstate]⟩
    omega

/-- The counts of messages that fall into different keys add up. -/
theorem sum_stateCounts {keys : List ShardKey} (hnd : keys.Nodup) {messages : List QueueMessage}
    (hcover : ∀ m ∈ messages, m.shardKey ∈ keys) :
    (keys.map fun k => stateCounts (messages.filter fun m => m.shardKey = k)).sum =
      stateCounts messages := by
  have hpair : ∀ (f g : ShardKey → Nat) (keys : List ShardKey),
      (keys.map fun k => (((f k : Nat) : Int), ((g k : Nat) : Int))).sum =
        (((keys.map f).sum : Int), ((keys.map g).sum : Int)) := by
    intro f g keys
    induction keys with
    | nil => rfl
    | cons k keys ih => simp [ih]
  simp only [stateCounts]
  rw [hpair, sum_countP_keys hnd hcover, sum_countP_keys hnd hcover]

/-- The shards of a queue and a priority hold the counts of its messages. -/
theorem sum_shards (h : db.RollupValid) (queueId : Uuid) (priority : Int) :
    ((db.queuePriorityStateShard.filter fun s =>
        toLex (s.key.queueId, s.key.priority) = toLex (queueId, priority)).map (·.counts)).sum =
      ((db.queueMessage.countP (isInState queueId priority .ready) : Int),
        (db.queueMessage.countP (isInState queueId priority .inFlight) : Int)) := by
  have hkey : ∀ s : QueuePriorityStateShard,
      toLex (s.key.queueId, s.key.priority) = toLex (queueId, priority) ↔
        s.key.queueId = queueId ∧ s.key.priority = priority := fun s => by simp
  simp only [hkey]
  generalize hshards : (db.queuePriorityStateShard.filter fun s =>
    decide (s.key.queueId = queueId ∧ s.key.priority = priority)) = shards
  have hmem : ∀ s, s ∈ shards ↔ s ∈ db.queuePriorityStateShard ∧ s.key.queueId = queueId ∧
      s.key.priority = priority := fun s => by rw [← hshards, List.mem_filter, decide_eq_true_eq]
  have hnd : (shards.map (·.key)).Nodup := by
    rw [← hshards]
    exact (List.filter_sublist.map _).nodup h.rollup.keys
  let messages := db.queueMessage.filter fun m => m.queueId = queueId ∧ m.priority = priority
  have hcover : ∀ m ∈ messages, m.shardKey ∈ shards.map (·.key) := by
    intro m hm
    obtain ⟨hm, hq⟩ := List.mem_filter.mp hm
    obtain ⟨s, hs, hsk⟩ := List.mem_map.mp (shardKey_mem h hm)
    refine List.mem_map.mpr ⟨s, (hmem s).mpr ⟨hs, ?_⟩, hsk⟩
    rw [hsk]
    simpa [QueueMessage.shardKey] using hq
  have hcounts : shards.map (·.counts) = (shards.map (·.key)).map fun k =>
      stateCounts (messages.filter fun m => m.shardKey = k) := by
    rw [List.map_map]
    refine List.map_congr_left fun s hs => ?_
    obtain ⟨hs, hq, hp⟩ := (hmem s).mp hs
    have hstored : storedCounts db.queuePriorityStateShard s.key = s.counts := by
      rw [storedCounts, (findShard_eq_some h.rollup.keys).mpr ⟨hs, rfl⟩]
      rfl
    rw [Function.comp_apply, ← hstored, h.rollup.stored, ← stateCounts_filter, List.filter_filter]
    congr 1
    refine List.filter_congr fun m _ => ?_
    by_cases hk : m.shardKey = s.key
    · have hmq : m.queueId = queueId := by rw [← hq, ← hk]; rfl
      have hmp : m.priority = priority := by rw [← hp, ← hk]; rfl
      simp [hk, hmq, hmp]
    · simp [hk]
  rw [hcounts, sum_stateCounts hnd hcover, stateCounts, List.countP_filter, List.countP_filter]
  have hstate : ∀ state : MessageState, (fun m : QueueMessage => decide (m.state = state) &&
      decide (m.queueId = queueId ∧ m.priority = priority)) = isInState queueId priority state := by
    intro state
    funext m
    simp only [isInState, ← Bool.decide_and]
    exact decide_eq_decide.mpr (by tauto)
  rw [hstate, hstate]

/-! ## The joins -/

/-- `physical_state` gives one row, with the counts by state. -/
theorem physicalState_row (h : db.RollupValid) (queueId : Uuid) (priority : Int) :
    ∃ o, leftJoin (fun e => e.1 = toLex (queueId, priority))
        (physicalState db.queuePriorityStateShard) = [o] ∧
      (o.map (·.2.1)).getD 0 = (db.queueMessage.countP (isInState queueId priority .ready) : Int) ∧
      (o.map (·.2.2)).getD 0 =
        (db.queueMessage.countP (isInState queueId priority .inFlight) : Int) := by
  obtain ⟨o, ho, hcolumn⟩ := leftJoin_aggregate
    (fun s : QueuePriorityStateShard => toLex (s.key.queueId, s.key.priority))
    (fun group => (group.map (·.counts)).sum) db.queuePriorityStateShard
    (fun k => k = toLex (queueId, priority)) (toLex (queueId, priority)) fun _ _ => decide_eq_true_iff
  refine ⟨o, ho, (hcolumn Prod.fst rfl).trans ?_, (hcolumn Prod.snd rfl).trans ?_⟩
  · rw [sum_shards h]
  · rw [sum_shards h]

/-- `expired_ready` gives one row, with the count of the expired messages. -/
theorem expiredReady_row (messages : List QueueMessage) (now : Int) (queueId : Uuid)
    (priority : Int) :
    ∃ o, leftJoin (fun e => e.1 = toLex (queueId, priority)) (expiredReady messages now) = [o] ∧
      (o.map (·.2)).getD 0 = (messages.countP (fun m =>
        isInState queueId priority .ready m ∧ m.expiresAt ≤ now) : Int) := by
  obtain ⟨o, ho, hcolumn⟩ := leftJoin_aggregate
    (fun m : QueueMessage => toLex (m.queueId, m.priority)) (fun group => (group.length : Int))
    (messages.filter fun m => m.state = .ready ∧ m.expiresAt ≤ now)
    (fun k => k = toLex (queueId, priority)) (toLex (queueId, priority)) fun _ _ => decide_eq_true_iff
  refine ⟨o, ho, (hcolumn id rfl).trans ?_⟩
  rw [List.filter_filter, ← List.countP_eq_length_filter, id]
  congr 1
  refine List.countP_congr fun m _ => ?_
  simp [isInState]
  tauto

/-- The join of messages with their queues, counted for one queue and one priority. -/
theorem countP_join {queues : List QueueRow} (hids : (queues.map (·.id)).Nodup)
    (hqueue : queue ∈ queues) (priority : Int) (holds : QueueMessage × QueueRow → Bool)
    (messages : List QueueMessage) :
    (messages.flatMap fun m => (queues.filter fun q => q.id = m.queueId).map fun q => (m, q)).countP
        (fun e => toLex (e.1.queueId, toLex (e.1.priority, e.2.maxDeliveryAttempts)) =
          toLex (queue.id, toLex (priority, queue.maxDeliveryAttempts)) ∧ holds e) =
      messages.countP fun m => m.queueId = queue.id ∧ m.priority = priority ∧ holds (m, queue) := by
  induction messages with
  | nil => rfl
  | cons m messages ih =>
    rw [List.flatMap_cons, List.countP_append, ih, List.countP_cons, Nat.add_comm]
    congr 1
    by_cases hm : m.queueId = queue.id
    · rw [hm, filter_key_eq hids hqueue]
      simp [hm, List.countP_cons, and_assoc]
    · rw [List.countP_eq_zero.mpr]
      · simp [hm]
      · intro e he
        obtain ⟨q, -, rfl⟩ := List.mem_map.mp he
        simp [hm]

/-- `timed_out_in_flight` gives one row: messages have one queue, hence one limit. -/
theorem timedOutInFlight_row {queues : List QueueRow} (hids : (queues.map (·.id)).Nodup)
    (hqueue : queue ∈ queues) (messages : List QueueMessage) (now priority : Int) :
    ∃ o, leftJoin (fun e => (ofLex e.1).1 = queue.id ∧ (ofLex (ofLex e.1).2).1 = priority)
        (timedOutInFlight queues messages now) = [o] ∧
      (o.map (·.2.1)).getD 0 = (messages.countP (fun m =>
        isInState queue.id priority .inFlight m ∧ m.availableAfter ≤ now) : Int) ∧
      (o.map (·.2.2)).getD 0 = (messages.countP (isOldestRetryable queue priority now) : Int) := by
  obtain ⟨o, ho, hcolumn⟩ := leftJoin_aggregate
    (fun e : QueueMessage × QueueRow =>
      toLex (e.1.queueId, toLex (e.1.priority, e.2.maxDeliveryAttempts)))
    (fun group => ((group.length : Int), ((group.countP fun e =>
      now < e.1.expiresAt ∧ e.1.deliveryAttempts < e.2.maxDeliveryAttempts : Nat) : Int)))
    ((messages.filter fun m => m.state = .inFlight ∧ m.availableAfter ≤ now).flatMap fun m =>
      (queues.filter fun q => q.id = m.queueId).map fun q => (m, q))
    (fun k => (ofLex k).1 = queue.id ∧ (ofLex (ofLex k).2).1 = priority)
    (toLex (queue.id, toLex (priority, queue.maxDeliveryAttempts))) (by
      rintro ⟨m, q⟩ he
      obtain ⟨m', -, he⟩ := List.mem_flatMap.mp he
      obtain ⟨q', hq', heq⟩ := List.mem_map.mp he
      obtain ⟨rfl, rfl⟩ := Prod.mk.inj heq
      obtain ⟨hq', hid⟩ := List.mem_filter.mp hq'
      simp only [decide_eq_true_eq] at hid
      -- the queue of the message is the queue of the key
      have hsame : m'.queueId = queue.id → q' = queue := fun h =>
        eq_of_key_eq hids hq' hqueue (hid.trans h)
      refine decide_eq_true_iff.trans ?_
      simp only [ofLex_toLex, EmbeddingLike.apply_eq_iff_eq, Prod.mk.injEq]
      exact ⟨fun h => ⟨h.1, h.2, by rw [hsame h.1]⟩, fun h => ⟨h.1, h.2.1⟩⟩)
  have hcount := countP_join hids hqueue priority
  refine ⟨o, ho, (hcolumn Prod.fst rfl).trans (congrArg Nat.cast ?_),
    (hcolumn Prod.snd rfl).trans (congrArg Nat.cast ?_)⟩
  · have hall := hcount (fun _ => true)
      (messages.filter fun m => m.state = .inFlight ∧ m.availableAfter ≤ now)
    simp only [and_true] at hall
    rw [← List.countP_eq_length_filter, hall, List.countP_filter]
    refine List.countP_congr fun m _ => ?_
    simp [isInState]
    tauto
  · have hretryable := hcount
      (fun e => now < e.1.expiresAt ∧ e.1.deliveryAttempts < e.2.maxDeliveryAttempts)
      (messages.filter fun m => m.state = .inFlight ∧ m.availableAfter ≤ now)
    rw [List.countP_filter]
    rw [List.countP_filter] at hretryable
    refine Eq.trans (List.countP_congr fun e _ => ?_)
      (hretryable.trans (List.countP_congr fun m _ => ?_))
    · simp
      tauto
    · simp [isOldestRetryable]
      tauto

/-! ## The consumer's view -/

/-- The messages of a priority that a dequeue would accept as its candidate. -/
def readyMessages (db : Database) (queue : QueueRow) (priority now : Int) : List QueueMessage :=
  db.queueMessage.filter fun m => m.priority = priority ∧ isCandidate queue now m

/-- The messages of a priority that an acknowledge with the current handle would remove. -/
def inFlightMessages (db : Database) (queue : QueueRow) (priority now : Int) : List QueueMessage :=
  db.queueMessage.filter fun m => m.priority = priority ∧
    m.receiptHandle.any fun receiptHandle => isAcknowledgeable queue.id m.id receiptHandle now m

/-- The age of the oldest of the messages, and zero without any. -/
inductive OldestAge (now : Int) (messages : List QueueMessage) : Rat → Prop
  | empty (h : messages = []) : OldestAge now messages 0
  | oldest {m : QueueMessage} (hm : m ∈ messages)
      (hmin : ∀ m' ∈ messages, m.enqueuedAt ≤ m'.enqueuedAt) :
      OldestAge now messages (((now - m.enqueuedAt : Int) : Rat) / 1000000)

/-- A candidate is a ready message that has not expired, or one that may be retried. -/
theorem isCandidate_iff (priority now : Int) (hqueue : Checked queueChecks queue)
    {m : QueueMessage} (hm : Checked queueMessageChecks m) :
    (m.priority = priority ∧ isCandidate queue now m) ↔
      (isOldestReady queue priority now m ∨ isOldestRetryable queue priority now m) := by
  have hmax := (QueueRow.checked_iff.mp hqueue).2.2.2.1.1
  rcases m.state_cases hm with ⟨hstate, -, hattempts⟩ | ⟨hstate, -⟩
  · have : m.deliveryAttempts < queue.maxDeliveryAttempts := by omega
    simp [isCandidate, isOldestReady, isOldestRetryable, hstate, this, @eq_comm _ queue.id]
    tauto
  · simp [isCandidate, isOldestReady, isOldestRetryable, hstate, @eq_comm _ queue.id]
    tauto

/-- A message that can be acknowledged is one in flight whose lease has not elapsed. -/
theorem isAcknowledgeable_iff (queue : QueueRow) (priority now : Int) {m : QueueMessage}
    (hm : Checked queueMessageChecks m) :
    (m.priority = priority ∧ m.receiptHandle.any fun receiptHandle =>
        isAcknowledgeable queue.id m.id receiptHandle now m) ↔
      isOldestInFlight queue priority now m := by
  rcases m.state_cases hm with ⟨hstate, hhandle, -⟩ | ⟨hstate, receiptHandle, hhandle⟩
  · simp [isOldestInFlight, hstate, hhandle]
  · simp [isOldestInFlight, isAcknowledgeable, hstate, hhandle]
    tauto

/-- Ready messages, and those that have only expired since, are the physical READY messages,
    and those whose lease has only elapsed since. -/
theorem ready_balance (h : db.Valid) (hqueue : queue ∈ db.queue) (priority now : Int) :
    (readyMessages db queue priority now).length + db.queueMessage.countP (fun m =>
        isInState queue.id priority .ready m ∧ m.expiresAt ≤ now) =
      db.queueMessage.countP (isInState queue.id priority .ready) +
        db.queueMessage.countP (isOldestRetryable queue priority now) := by
  rw [readyMessages, ← List.countP_eq_length_filter]
  refine countP_balance fun m hm => ?_
  have hiff := isCandidate_iff priority now (h.queueChecked queue hqueue) (h.messages.checked m hm)
  simp only [decide_eq_true_eq, hiff]
  simp only [isOldestReady, isOldestRetryable, isInState, decide_eq_true_eq]
  rcases m.state_cases (h.messages.checked m hm) with ⟨hstate, -⟩ | ⟨hstate, -⟩ <;>
    by_cases hq : m.queueId = queue.id <;> by_cases hp : m.priority = priority <;>
    by_cases hexpires : m.expiresAt ≤ now <;> simp [hstate, hq, hp, hexpires]

/-- Running leases, and those that have only elapsed since, are the IN_FLIGHT messages. -/
theorem inFlight_balance (h : db.Valid) (queue : QueueRow) (priority now : Int) :
    (inFlightMessages db queue priority now).length + db.queueMessage.countP (fun m =>
        isInState queue.id priority .inFlight m ∧ m.availableAfter ≤ now) =
      db.queueMessage.countP (isInState queue.id priority .inFlight) := by
  have hbalance : (db.queueMessage.countP fun m => m.priority = priority ∧
        m.receiptHandle.any fun receiptHandle =>
          isAcknowledgeable queue.id m.id receiptHandle now m) +
      db.queueMessage.countP (fun m =>
        isInState queue.id priority .inFlight m ∧ m.availableAfter ≤ now) =
      db.queueMessage.countP (isInState queue.id priority .inFlight) +
        db.queueMessage.countP (fun _ => false) := by
    refine countP_balance fun m hm => ?_
    have hiff := isAcknowledgeable_iff queue priority now (h.messages.checked m hm)
    simp only [decide_eq_true_eq, hiff]
    simp only [isOldestInFlight, isInState, decide_eq_true_eq]
    by_cases hq : m.queueId = queue.id <;> by_cases hp : m.priority = priority <;>
      by_cases hs : m.state = .inFlight <;> by_cases ha : m.availableAfter ≤ now <;>
      simp [hq, hp, hs, ha]
  rw [inFlightMessages, ← List.countP_eq_length_filter]
  simpa using hbalance

/-! ## Ages -/

/-- What `ORDER BY enqueued_at LIMIT 1` finds. -/
theorem oldestEnqueuedAt_cases (messages : List QueueMessage) (holds : QueueMessage → Bool) :
    (oldestEnqueuedAt messages holds = none ∧ ∀ m ∈ messages, ¬holds m) ∨
      ∃ m ∈ messages, holds m ∧ oldestEnqueuedAt messages holds = some m.enqueuedAt ∧
        ∀ m' ∈ messages, holds m' → m.enqueuedAt ≤ m'.enqueuedAt := by
  unfold oldestEnqueuedAt
  cases hhead : (orderBy (·.enqueuedAt) (messages.filter holds)).head? with
  | none =>
    rw [head?_orderBy_eq_none, List.filter_eq_nil_iff] at hhead
    exact Or.inl ⟨rfl, hhead⟩
  | some m =>
    obtain ⟨hm, hmin⟩ := head?_orderBy_eq_some hhead
    obtain ⟨hmem, hholds⟩ := List.mem_filter.mp hm
    exact Or.inr ⟨m, hmem, hholds, rfl, fun m' hm' h' => hmin m' (List.mem_filter.mpr ⟨hm', h'⟩)⟩

/-- The collected age of the ready messages. -/
theorem ready_age (h : db.Valid) (hqueue : queue ∈ db.queue) (priority now : Int) :
    OldestAge now (readyMessages db queue priority now) (ageSeconds now (least
      (oldestEnqueuedAt db.queueMessage (isOldestReady queue priority now))
      (oldestEnqueuedAt db.queueMessage (isOldestRetryable queue priority now)))) := by
  have hmem : ∀ m, m ∈ readyMessages db queue priority now ↔ m ∈ db.queueMessage ∧
      (isOldestReady queue priority now m ∨ isOldestRetryable queue priority now m) := by
    intro m
    rw [readyMessages, List.mem_filter, decide_eq_true_eq]
    exact and_congr_right fun hm =>
      isCandidate_iff priority now (h.queueChecked queue hqueue) (h.messages.checked m hm)
  rcases oldestEnqueuedAt_cases db.queueMessage (isOldestReady queue priority now) with
    ⟨hr, hnr⟩ | ⟨r, hrmem, hrholds, hr, hrmin⟩ <;>
  rcases oldestEnqueuedAt_cases db.queueMessage (isOldestRetryable queue priority now) with
    ⟨ht, hnt⟩ | ⟨t, htmem, htholds, ht, htmin⟩ <;>
  rw [hr, ht]
  · refine .empty (List.eq_nil_iff_forall_not_mem.mpr fun m hm => ?_)
    obtain ⟨hm, h | h⟩ := (hmem m).mp hm
    · exact hnr m hm h
    · exact hnt m hm h
  · refine .oldest ((hmem t).mpr ⟨htmem, Or.inr htholds⟩) fun m hm => ?_
    obtain ⟨hm, h | h⟩ := (hmem m).mp hm
    · exact absurd h (hnr m hm)
    · exact htmin m hm h
  · refine .oldest ((hmem r).mpr ⟨hrmem, Or.inl hrholds⟩) fun m hm => ?_
    obtain ⟨hm, h | h⟩ := (hmem m).mp hm
    · exact hrmin m hm h
    · exact absurd h (hnt m hm)
  · -- the earlier one of the two is the oldest of all
    rcases le_total r.enqueuedAt t.enqueuedAt with hle | hle
    · rw [least, min_eq_left hle]
      refine .oldest ((hmem r).mpr ⟨hrmem, Or.inl hrholds⟩) fun m hm => ?_
      obtain ⟨hm, h | h⟩ := (hmem m).mp hm
      · exact hrmin m hm h
      · exact hle.trans (htmin m hm h)
    · rw [least, min_eq_right hle]
      refine .oldest ((hmem t).mpr ⟨htmem, Or.inr htholds⟩) fun m hm => ?_
      obtain ⟨hm, h | h⟩ := (hmem m).mp hm
      · exact hle.trans (hrmin m hm h)
      · exact htmin m hm h

/-- The collected age of the messages in flight. -/
theorem inFlight_age (h : db.Valid) (queue : QueueRow) (priority now : Int) :
    OldestAge now (inFlightMessages db queue priority now) (ageSeconds now
      (oldestEnqueuedAt db.queueMessage (isOldestInFlight queue priority now))) := by
  have hmem : ∀ m, m ∈ inFlightMessages db queue priority now ↔
      m ∈ db.queueMessage ∧ isOldestInFlight queue priority now m := by
    intro m
    rw [inFlightMessages, List.mem_filter, decide_eq_true_eq]
    exact and_congr_right fun hm => isAcknowledgeable_iff queue priority now (h.messages.checked m hm)
  rcases oldestEnqueuedAt_cases db.queueMessage (isOldestInFlight queue priority now) with
    ⟨ho, hnone⟩ | ⟨o, homem, hoholds, ho, homin⟩ <;> rw [ho]
  · exact .empty (List.eq_nil_iff_forall_not_mem.mpr fun m hm =>
      hnone m ((hmem m).mp hm).1 ((hmem m).mp hm).2)
  · exact .oldest ((hmem o).mpr ⟨homem, hoholds⟩) fun m hm =>
      homin m ((hmem m).mp hm).1 ((hmem m).mp hm).2

/-! ## The collected rows -/

/-- A snapshot shows what consumers of the queue can do at `now`. -/
structure SnapshotAgrees (db : Database) (now : Int) (queue : QueueRow)
    (s : QueuePriorityStateSnapshot) : Prop where
  name : s.queueName = queue.name
  ready : s.ready = (readyMessages db queue s.priority.rank now).length
  inFlight : s.inFlight = (inFlightMessages db queue s.priority.rank now).length
  readyAge : OldestAge now (readyMessages db queue s.priority.rank now) s.oldestReadyAgeSeconds
  inFlightAge :
    OldestAge now (inFlightMessages db queue s.priority.rank now) s.oldestInFlightAgeSeconds

/-- Counts that are not negative decode. -/
theorem snapshotFromRow_ok (queueName : String) (priority : MessagePriority) (ready inFlight : Nat)
    (readyAge inFlightAge : Rat) :
    snapshotFromRow ⟨queueName, priority.rank, ready, inFlight, readyAge, inFlightAge⟩ =
      .ok ⟨queueName, priority, ready, inFlight, readyAge, inFlightAge⟩ := by
  simp [snapshotFromRow, MessagePriority.fromRank_rank, tryFromSigned, bind, Except.bind, pure,
    Except.pure]

/-- A queue and a priority give one row, which decodes to a snapshot that agrees. -/
theorem queuePriorityStateRows_eq (h : db.Valid) (hqueue : queue ∈ db.queue) (now : Int)
    (priority : MessagePriority) :
    ∃ row s, queuePriorityStateRows db now queue priority.rank = [row] ∧
      snapshotFromRow row = .ok s ∧ s.priority = priority ∧ SnapshotAgrees db now queue s := by
  obtain ⟨physical, hphysical, hready, hflight⟩ :=
    physicalState_row h.toRollupValid queue.id priority.rank
  obtain ⟨expired, hexpired, hexpiredCount⟩ :=
    expiredReady_row db.queueMessage now queue.id priority.rank
  obtain ⟨timedOut, htimedOut, hcount, hretryable⟩ :=
    timedOutInFlight_row h.queueIds hqueue db.queueMessage now priority.rank
  have hbalance := ready_balance h hqueue priority.rank now
  have hbalance' := inFlight_balance h queue priority.rank now
  have hreadyValue : (physical.map (·.2.1)).getD 0 - (expired.map (·.2)).getD 0 +
      (timedOut.map (·.2.2)).getD 0 = ((readyMessages db queue priority.rank now).length : Int) := by
    rw [hready, hexpiredCount, hretryable]
    omega
  have hflightValue : (physical.map (·.2.2)).getD 0 - (timedOut.map (·.2.1)).getD 0 =
      ((inFlightMessages db queue priority.rank now).length : Int) := by
    rw [hflight, hcount]
    omega
  have hrow : queuePriorityStateRows db now queue priority.rank = [{
      queueName := queue.name
      priority := priority.rank
      ready := ((readyMessages db queue priority.rank now).length : Int)
      inFlight := ((inFlightMessages db queue priority.rank now).length : Int)
      oldestReadyAgeSeconds := ageSeconds now (least
        (oldestEnqueuedAt db.queueMessage (isOldestReady queue priority.rank now))
        (oldestEnqueuedAt db.queueMessage (isOldestRetryable queue priority.rank now)))
      oldestInFlightAgeSeconds := ageSeconds now
        (oldestEnqueuedAt db.queueMessage (isOldestInFlight queue priority.rank now)) }] := by
    rw [queuePriorityStateRows, hphysical, hexpired, htimedOut]
    simp only [List.flatMap_singleton, List.map_cons, List.map_nil, hreadyValue, hflightValue]
  refine ⟨_, {
    queueName := queue.name
    priority := priority
    ready := (readyMessages db queue priority.rank now).length
    inFlight := (inFlightMessages db queue priority.rank now).length
    oldestReadyAgeSeconds := _
    oldestInFlightAgeSeconds := _ }, hrow, ?_, rfl, {
    name := rfl
    ready := rfl
    inFlight := rfl
    readyAge := ready_age h hqueue priority.rank now
    inFlightAge := inFlight_age h queue priority.rank now }⟩
  exact snapshotFromRow_ok queue.name priority _ _ _ _

/-- The name and the priority that a row decodes to. -/
def QueuePriorityStateRow.label (row : QueuePriorityStateRow) : String × MessagePriority :=
  (row.queueName, (MessagePriority.fromRank row.priority).getD .low)

theorem snapshotFromRow_label {row : QueuePriorityStateRow} {s : QueuePriorityStateSnapshot}
    (h : snapshotFromRow row = .ok s) : (s.queueName, s.priority) = row.label := by
  unfold snapshotFromRow at h
  split at h
  · cases h
  · next priority hpriority =>
    simp only [bind_eq_ok, pure_eq_ok] at h
    obtain ⟨ready, -, inFlight, -, rfl⟩ := h
    rw [QueuePriorityStateRow.label, hpriority]
    rfl

/-- The query has a row for each queue and priority, and they decode to snapshots that agree. -/
theorem queueStateRows_spec (h : db.Valid) (now : Int) :
    ((queueStateRows db now).map (·.label)).Perm
        (db.queue.flatMap fun queue => [MessagePriority.high, .medium, .low].map fun priority =>
          (queue.name, priority)) ∧
      ∀ row ∈ queueStateRows db now, ∃ queue ∈ db.queue, ∃ s,
        snapshotFromRow row = .ok s ∧ SnapshotAgrees db now queue s := by
  have hpriorities : priorities = [MessagePriority.high, .medium, .low].map (·.rank) := rfl
  constructor
  · rw [queueStateRows]
    refine ((orderBy_perm _ _).map _).trans (List.Perm.of_eq ?_)
    rw [List.map_flatMap]
    refine List.flatMap_congr fun queue hqueue => ?_
    rw [hpriorities, List.flatMap_map, List.map_flatMap, List.map_eq_flatMap]
    refine List.flatMap_congr fun priority _ => ?_
    obtain ⟨row, s, hrow, hs, rfl, hagrees⟩ := queuePriorityStateRows_eq h hqueue now priority
    rw [hrow, List.map_singleton, ← snapshotFromRow_label hs, hagrees.name]
  · intro row hrow
    rw [queueStateRows, mem_orderBy, hpriorities] at hrow
    obtain ⟨queue, hqueue, hrow⟩ := List.mem_flatMap.mp hrow
    rw [List.flatMap_map] at hrow
    obtain ⟨priority, -, hrow⟩ := List.mem_flatMap.mp hrow
    obtain ⟨row', s, heq, hs, -, hagrees⟩ := queuePriorityStateRows_eq h hqueue now priority
    rw [heq, List.mem_singleton] at hrow
    exact ⟨queue, hqueue, s, hrow ▸ hs, hagrees⟩

/-- In every valid database the collector yields one row for each queue and priority. -/
theorem collect_spec (h : db.Valid) (now : Int) :
    ∃ snapshots, collect db now = .ok snapshots ∧
      (snapshots.map fun s => (s.queueName, s.priority)).Perm
        (db.queue.flatMap fun queue => [MessagePriority.high, .medium, .low].map fun priority =>
          (queue.name, priority)) ∧
      ∀ s ∈ snapshots, ∃ queue ∈ db.queue, SnapshotAgrees db now queue s := by
  obtain ⟨hlabels, hagrees⟩ := queueStateRows_spec h now
  obtain ⟨snapshots, hcollect⟩ := mapM_ok fun row hrow => by
    obtain ⟨-, -, s, hs, -⟩ := hagrees row hrow
    exact ⟨s, hs⟩
  have hrows := mapM_eq_ok.mp hcollect
  refine ⟨snapshots, hcollect, ?_, fun s hs => ?_⟩
  · rw [forall₂_map_eq hrows fun row s h => snapshotFromRow_label h]
    exact hlabels
  · obtain ⟨row, hrow, hdecoded⟩ := mem_right_of_forall₂ hrows hs
    obtain ⟨queue, hqueue, s', hs', hs'agrees⟩ := hagrees row hrow
    rw [hdecoded] at hs'
    cases hs'
    exact ⟨queue, hqueue, hs'agrees⟩

/-- **The collector agrees with the consumers.**  In every state that operations reach, whatever
    their times and identifiers, and at every time, the collector succeeds; it yields one row
    for each queue and priority, and every row shows what consumers of the queue can do. -/
theorem collector_agrees (order : TriggerOrder) (calls : List Call) (now : Int) :
    let db := finalDatabase order .empty calls
    ∃ snapshots, collect db now = .ok snapshots ∧
      (snapshots.map fun s => (s.queueName, s.priority)).Perm
        (db.queue.flatMap fun queue => [MessagePriority.high, .medium, .low].map fun priority =>
          (queue.name, priority)) ∧
      (db.queue.map (·.name)).Nodup ∧
      ∀ s ∈ snapshots, ∃ queue ∈ db.queue, SnapshotAgrees db now queue s := by
  intro db
  have h : db.Valid := finalDatabase_valid Database.empty_valid order calls
  obtain ⟨snapshots, hcollect, hlabels, hagrees⟩ := collect_spec h now
  exact ⟨snapshots, hcollect, hlabels, h.queueNames, hagrees⟩

end Retsu
