/-
  The cleaners: which rows a batch removes, what it reports, and when the loop of a worker sleeps.

  A worker runs its statement again at once when the count that comes back is the batch size, and
  otherwise takes a long sleep.  The count has gone through LIMIT, DELETE … RETURNING, a join with
  the queues and GROUP BY; it is nevertheless the number of rows deleted, so that the worker never
  sleeps on rows it could have deleted.
-/
import Retsu.Relational.Batch
import Retsu.Reports
import Retsu.LiveRows

namespace Retsu

open Relational Concurrency

variable {order : TriggerOrder} {db : Database} {now : Int} {batchSize : UInt32}

/-! ## The loops -/

/-- The number that the loop of a cleaner compares with its batch size; there is none when the
    call has failed, and the worker ends. -/
def Response.cleaned : Response → Option Nat
  | processExpiredMessages summary => some summary.processed
  | purgeDeadLetterMessages summary => some summary.purged
  | _ => none

/-- The call in the loop of the expired-message cleaner, and its count. -/
def expiredMessageCleaner (now : Int) (batchSize : UInt32) (db : Database) :
    Database × Option Nat :=
  let (db', response) := processExpiredMessages db now batchSize
  (db', response.cleaned)

/-- The call in the loop of the dead-letter cleaner, and its count. -/
def deadLetterMessageCleaner (now retentionSeconds : Int) (batchSize : UInt32) (db : Database) :
    Database × Option Nat :=
  let (db', response) := purgeDeadLetterMessages db now retentionSeconds batchSize
  (db', response.cleaned)

/-! ## One batch -/

/-- Each queue that has lost a row is listed, once. -/
structure ListsQueues {α : Type} (queues : List QueueRow) (queueId : α → Uuid) (removed : List α)
    (names : List String) : Prop where
  once : names.Nodup
  affected : ∀ name, name ∈ names ↔
    ∃ q ∈ queues, q.name = name ∧ ∃ a ∈ removed, queueId a = q.id

/-- What a batch of the expired-message cleaner does to the database and what it reports. -/
structure ExpiredBatch (db : Database) (now : Int) (batchSize : UInt32) (db' : Database)
    (summary : ExpiredMessagesCleanupSummary) : Prop where
  /-- The first expired messages are removed. -/
  removed : RemovesFirst expiryOrder (isExpired now) batchSize.toNat db.queueMessage
    db'.queueMessage (removedMessages db db')
  /-- Nothing else changes, except the counters, which stay in step. -/
  others : db' = db.withMessages db'.queueMessage db'.queuePriorityStateShard
  counters : Represents db'.queuePriorityStateShard (tableCounts db'.queueMessage)
  listed : ListsQueues db.queue (·.queueId) (removedMessages db db')
    (summary.perQueue.map (·.queueName))
  neverDelivered : summary.neverDelivered =
    (removedMessages db db').countP fun m => m.deliveryAttempts = 0
  previouslyDelivered : summary.previouslyDelivered =
    (removedMessages db db').countP fun m => 0 < m.deliveryAttempts
  processed : summary.processed = min (db.queueMessage.countP (isExpired now)) batchSize.toNat
  drained : summary.processed ≠ batchSize.toNat →
    ∀ m ∈ db'.queueMessage, isExpired now m = false

/-- What a batch of the dead-letter cleaner does to the database and what it reports. -/
structure PurgedBatch (db : Database) (now retentionSeconds : Int) (batchSize : UInt32)
    (db' : Database) (summary : DeadLetterMessagesPurgeSummary) : Prop where
  removed : RemovesFirst purgeOrder (isPurgeable retentionSeconds now) batchSize.toNat
    db.queueDeadLetterMessage db'.queueDeadLetterMessage (removedDeadLetters db db')
  others : db' = { db with queueDeadLetterMessage := db'.queueDeadLetterMessage }
  listed : ListsQueues db.queue (·.queueId) (removedDeadLetters db db')
    (summary.perQueue.map (·.queueName))
  purged : summary.purged =
    min (db.queueDeadLetterMessage.countP (isPurgeable retentionSeconds now)) batchSize.toNat
  drained : summary.purged ≠ batchSize.toNat →
    ∀ d ∈ db'.queueDeadLetterMessage, isPurgeable retentionSeconds now d = false

theorem listsQueues_groupKeys {α : Type} {queues : List QueueRow} {queueId : α → Uuid}
    {removed : List α} :
    ListsQueues queues queueId removed
      (groupKeys Prod.fst (joinQueueName queues queueId removed)) :=
  ⟨(groupKeys_sorted _ _).imp ne_of_lt, fun _ => mem_groupKeys_joinQueueName⟩

/-! ### Expired messages -/

/-- The identifiers that the cleanup selects. -/
def expiredIds (db : Database) (now : Int) (batchSize : UInt32) : List Uuid :=
  firstKeys (·.id) expiryOrder (isExpired now) batchSize.toNat db.queueMessage

/-- The rows that it deletes. -/
def expiredRows (db : Database) (now : Int) (batchSize : UInt32) : List QueueMessage :=
  db.queueMessage.filter fun m => m.id ∈ expiredIds db now batchSize

theorem expiryOrder_injective (h : db.Valid) :
    ∀ m ∈ db.queueMessage, ∀ m' ∈ db.queueMessage, expiryOrder m = expiryOrder m' → m = m' := by
  intro m hm m' hm' heq
  have hpair := toLex.injective heq
  exact eq_of_key_eq h.messages.ids hm hm' (Prod.mk.inj hpair).2

/-- The cleanup deletes these rows and reports them. -/
theorem processExpiredMessages_eq (h : db.Valid) (now : Int) (batchSize : UInt32) :
    ∃ shards, processExpiredMessages db now batchSize =
        (db.withMessages (db.queueMessage.filter fun m => m.id ∉ expiredIds db now batchSize)
            shards,
          .processExpiredMessages (expiredSummary db.queue (expiredRows db now batchSize))) ∧
      (db.withMessages (db.queueMessage.filter fun m => m.id ∉ expiredIds db now batchSize)
        shards).Valid := by
  obtain ⟨shards, hok, hvalid⟩ := deleteStatement_exec h (expiredIds db now batchSize)
  have hexec : executeExpired db (expiredIds db now batchSize) =
      .ok (db.withMessages (db.queueMessage.filter fun m => m.id ∉ expiredIds db now batchSize)
        shards, processExpiredMessagesRows db.queue (expiredRows db now batchSize)) := by
    simp only [executeExpired, hok, bind_eq_ok, pure_eq_ok, deleteStatement_deleted]
    exact ⟨_, rfl, rfl⟩
  refine ⟨shards, ?_, hvalid⟩
  show settle db _ (executeExpired db (expiredIds db now batchSize)) = _
  rw [hexec]
  simp only [settle, decodeExpired_rows, respond, expiredSummary]

/-- **One run of the expired-message cleaner.** -/
theorem processExpiredMessages_batch (h : db.Valid) (now : Int) (batchSize : UInt32) :
    ∃ db' summary,
      processExpiredMessages db now batchSize = (db', .processExpiredMessages summary) ∧
      ExpiredBatch db now batchSize db' summary ∧ db'.Valid := by
  obtain ⟨shards, hrun, hvalid⟩ := processExpiredMessages_eq h now batchSize
  have hfirst : RemovesFirst expiryOrder (isExpired now) batchSize.toNat db.queueMessage
      (db.queueMessage.filter fun m => m.id ∉ expiredIds db now batchSize)
      (expiredRows db now batchSize) :=
    removesFirst_delete h.messages.ids (expiryOrder_injective h) (isExpired now) batchSize.toNat
  have hremoved : removedMessages db (db.withMessages
      (db.queueMessage.filter fun m => m.id ∉ expiredIds db now batchSize) shards) =
      expiredRows db now batchSize := removedRows_filter _
  have hmem : ∀ m ∈ expiredRows db now batchSize, m ∈ db.queueMessage := fun m hm =>
    (List.mem_filter.mp hm).1
  have hqueue : ∀ m ∈ expiredRows db now batchSize, ∃ q ∈ db.queue, q.id = m.queueId :=
    fun m hm => h.messages.queue m (hmem m hm)
  have hprocessed := expiredSummary_processed h.queueIds hqueue fun m hm =>
    (QueueMessage.checked_iff.mp (h.messages.checked m (hmem m hm))).2.1
  refine ⟨_, _, hrun, ⟨?_, rfl, hvalid.rollup, ?_, ?_, ?_, ?_, ?_⟩, hvalid⟩
  · rw [hremoved]
    exact hfirst
  · rw [hremoved, expiredSummary_names]
    exact listsQueues_groupKeys
  · rw [hremoved]
    exact expiredSummary_neverDelivered h.queueIds hqueue
  · rw [hremoved]
    exact expiredSummary_previouslyDelivered h.queueIds hqueue
  · rw [hprocessed]
    exact hfirst.length
  · rw [hprocessed]
    exact hfirst.drained

/-! ### Dead letters -/

/-- The identifiers that the purge selects. -/
def purgedIds (db : Database) (now retentionSeconds : Int) (batchSize : UInt32) : List Uuid :=
  firstKeys (·.id) purgeOrder (isPurgeable retentionSeconds now) batchSize.toNat
    db.queueDeadLetterMessage

/-- The rows that it deletes. -/
def purgedRows (db : Database) (now retentionSeconds : Int) (batchSize : UInt32) :
    List QueueDeadLetterMessage :=
  db.queueDeadLetterMessage.filter fun d => d.id ∈ purgedIds db now retentionSeconds batchSize

theorem purgeOrder_injective (h : db.Valid) :
    ∀ d ∈ db.queueDeadLetterMessage, ∀ d' ∈ db.queueDeadLetterMessage,
      purgeOrder d = purgeOrder d' → d = d' := by
  intro d hd d' hd' heq
  have hpair := toLex.injective heq
  exact eq_of_key_eq h.deadLetterIds hd hd' (Prod.mk.inj hpair).2

/-- The purge deletes these rows and reports them. -/
theorem purgeDeadLetterMessages_eq (db : Database) (now retentionSeconds : Int)
    (batchSize : UInt32) :
    purgeDeadLetterMessages db now retentionSeconds batchSize =
      ({ db with queueDeadLetterMessage := db.queueDeadLetterMessage.filter fun d =>
          d.id ∉ purgedIds db now retentionSeconds batchSize },
        .purgeDeadLetterMessages
          (purgedSummary db.queue (purgedRows db now retentionSeconds batchSize))) := by
  have hdecoded := decodePurged_rows db.queue (purgedRows db now retentionSeconds batchSize)
  show (_, respond .purgeDeadLetterMessages (decodePurged (purgeDeadLetterMessagesRows db.queue
    (purgedRows db now retentionSeconds batchSize)))) = _
  rw [hdecoded]
  rfl

/-- **One run of the dead-letter cleaner.** -/
theorem purgeDeadLetterMessages_batch (h : db.Valid) (now retentionSeconds : Int)
    (batchSize : UInt32) :
    ∃ db' summary, purgeDeadLetterMessages db now retentionSeconds batchSize =
        (db', .purgeDeadLetterMessages summary) ∧
      PurgedBatch db now retentionSeconds batchSize db' summary ∧ db'.Valid := by
  have hrun := purgeDeadLetterMessages_eq db now retentionSeconds batchSize
  obtain ⟨-, -, -, hvalid⟩ := purgeDeadLetterMessages_effect h now retentionSeconds batchSize
  rw [hrun] at hvalid
  have hfirst : RemovesFirst purgeOrder (isPurgeable retentionSeconds now) batchSize.toNat
      db.queueDeadLetterMessage
      (db.queueDeadLetterMessage.filter fun d => d.id ∉ purgedIds db now retentionSeconds batchSize)
      (purgedRows db now retentionSeconds batchSize) :=
    removesFirst_delete h.deadLetterIds (purgeOrder_injective h)
      (isPurgeable retentionSeconds now) batchSize.toNat
  have hremoved : removedDeadLetters db
      { db with queueDeadLetterMessage := db.queueDeadLetterMessage.filter fun d =>
          d.id ∉ purgedIds db now retentionSeconds batchSize } =
      purgedRows db now retentionSeconds batchSize := removedRows_filter _
  have hqueue : ∀ d ∈ purgedRows db now retentionSeconds batchSize,
      ∃ q ∈ db.queue, q.id = d.queueId := fun d hd =>
    h.deadLetterQueue d (List.mem_filter.mp hd).1
  have hpurged := purgedSummary_purged h.queueIds hqueue
  refine ⟨_, _, hrun, ⟨?_, rfl, ?_, ?_, ?_⟩, hvalid⟩
  · rw [hremoved]
    exact hfirst
  · rw [hremoved, purgedSummary_names]
    exact listsQueues_groupKeys
  · rw [hpurged]
    exact hfirst.length
  · rw [hpurged]
    exact hfirst.drained

/-! ## The loop at a fixed time -/

/-- The turns that the loop of a cleaner takes before its long sleep, when time stands still. -/
structure Drains {α : Type} (batchSize : UInt32) (rows : Database → List α)
    (removed : Database → Database → List α) (eligible : α → Bool) (db : Database)
    (ts : List (Turn Database)) : Prop where
  length : ts.length = (rows db).countP eligible / batchSize.toNat + 1
  /-- Every eligible row is removed, once. -/
  once : (ts.flatMap fun t => removed t.before t.after).Perm ((rows db).filter eligible)
  counted : ∀ t ∈ ts, t.count = some (removed t.before t.after).length
  drained : ∃ last ∈ ts.getLast?, ∀ a ∈ rows last.after, eligible a = false

/-- What the two cleaners have in common. -/
theorem drains_of_takesFirst {α : Type} {job : Database → Database × Option Nat}
    {rows pending : Database → List α} {removed : Database → Database → List α}
    {eligible : α → Bool} (htakes : TakesFirst job batchSize.toNat pending Database.Valid)
    (hpending : ∀ db, (pending db).Perm ((rows db).filter eligible))
    (hremoved : ∀ db, db.Valid →
      (removed db (job db).1).Perm ((pending db).take batchSize.toNat))
    (hbatch : 0 < batchSize.toNat) (h : db.Valid) {fuel : Nat}
    (hfuel : (rows db).countP eligible / batchSize.toNat < fuel) :
    ∃ ts, turns job batchSize.toNat fuel db = some ts ∧
      Drains batchSize rows removed eligible db ts := by
  have hcount : (pending db).length = (rows db).countP eligible := by
    rw [(hpending db).length_eq, List.countP_eq_length_filter]
  rw [← hcount] at hfuel
  obtain ⟨ts, hts, hlength, hturns, htaken, last, hlast, -, hend⟩ := htakes.turns hbatch h hfuel
  have hrows : ∀ t ∈ ts, (removed t.before t.after).Perm
      ((pending t.before).take batchSize.toNat) := by
    intro t ht
    obtain ⟨hvalid, heq⟩ := hturns t ht
    rw [show t.after = (job t.before).1 from congrArg Turn.after heq]
    exact hremoved t.before hvalid
  refine ⟨ts, hts, ?_, ?_, ?_, last, hlast, ?_⟩
  · rw [hlength, hcount]
  · refine (List.Perm.flatMap_left ts hrows).trans ?_
    rw [htaken]
    exact hpending db
  · intro t ht
    obtain ⟨hvalid, heq⟩ := hturns t ht
    rw [(hrows t ht).length_eq, show t.count = (job t.before).2 from congrArg Turn.count heq]
    exact htakes.count t.before hvalid
  · intro a ha
    have hempty := (hpending last.after).symm
    rw [hend, List.perm_nil, List.filter_eq_nil_iff] at hempty
    simpa using hempty a ha

theorem expiredMessageCleaner_takesFirst (now : Int) (batchSize : UInt32) :
    TakesFirst (expiredMessageCleaner now batchSize) batchSize.toNat
      (fun db => expiredCandidates db now) Database.Valid where
  count db h := by
    obtain ⟨shards, hrun, -⟩ := processExpiredMessages_eq h now batchSize
    have hperm := filter_firstKeys_perm h.messages.ids expiryOrder (isExpired now) batchSize.toNat
    have hmem : ∀ m ∈ expiredRows db now batchSize, m ∈ db.queueMessage := fun m hm =>
      (List.mem_filter.mp hm).1
    have hprocessed := expiredSummary_processed h.queueIds
      (fun m hm => h.messages.queue m (hmem m hm)) fun m hm =>
        (QueueMessage.checked_iff.mp (h.messages.checked m (hmem m hm))).2.1
    simp only [expiredMessageCleaner, hrun, Response.cleaned, hprocessed]
    exact congrArg some hperm.length_eq
  pending db h := by
    obtain ⟨shards, hrun, -⟩ := processExpiredMessages_eq h now batchSize
    simp only [expiredMessageCleaner, hrun]
    exact orderBy_delete h.messages.ids (expiryOrder_injective h) (isExpired now) batchSize.toNat
  invariant db h := by
    obtain ⟨shards, hrun, hvalid⟩ := processExpiredMessages_eq h now batchSize
    simp only [expiredMessageCleaner, hrun]
    exact hvalid

theorem deadLetterMessageCleaner_takesFirst (now retentionSeconds : Int) (batchSize : UInt32) :
    TakesFirst (deadLetterMessageCleaner now retentionSeconds batchSize) batchSize.toNat
      (fun db => purgeCandidates db retentionSeconds now) Database.Valid where
  count db h := by
    have hperm := filter_firstKeys_perm h.deadLetterIds purgeOrder
      (isPurgeable retentionSeconds now) batchSize.toNat
    have hmem : ∀ d ∈ purgedRows db now retentionSeconds batchSize, d ∈ db.queueDeadLetterMessage :=
      fun d hd => (List.mem_filter.mp hd).1
    have hpurged := purgedSummary_purged h.queueIds fun d hd => h.deadLetterQueue d (hmem d hd)
    simp only [deadLetterMessageCleaner, purgeDeadLetterMessages_eq, Response.cleaned, hpurged]
    exact congrArg some hperm.length_eq
  pending db h := by
    simp only [deadLetterMessageCleaner, purgeDeadLetterMessages_eq]
    exact orderBy_delete h.deadLetterIds (purgeOrder_injective h) (isPurgeable retentionSeconds now)
      batchSize.toNat
  invariant db h := by
    obtain ⟨-, -, -, hvalid⟩ := purgeDeadLetterMessages_effect h now retentionSeconds batchSize
    exact hvalid

/-! ## Where no row is locked -/

namespace System

variable {s : System} {tid : Nat} {t : Txn}

/-- A transaction that selects rows to delete, among which it will find none that another one has
    locked or that it does not want. -/
structure Unlocked (s : System) (tid : Nat) (t : Txn) : Prop where
  txn : s.txns tid = some t
  phase : t.phase = .selecting
  lease : (t.scan .lease).next = none
  free : ∀ id, s.locks.blocks tid (t.lock id) = false
  wanted : ∀ id ∈ (t.scan .delete).pending, t.recheck s.db .delete id = some true

/-- The next row is picked. -/
theorem Unlocked.visit (h : s.Unlocked tid t) (order : TriggerOrder) {id : Uuid}
    (hnext : (t.scan .delete).next = some id) :
    ∃ s', step order s (.visit tid .delete) = some s' ∧ s'.db = s.db ∧
      s'.Unlocked tid (t.setScan .delete ((t.scan .delete).pick id)) := by
  obtain ⟨-, hpending⟩ := Scan.next_eq_some hnext
  have hwanted := h.wanted id (by rw [hpending]; exact List.mem_cons_self)
  refine ⟨{ s.setTxn tid (t.setScan .delete ((t.scan .delete).pick id)) with
    locks := s.locks.acquire tid (t.lock id) }, ?_, rfl, ?_, h.phase, ?_, ?_, ?_⟩
  · have hphase : s.inPhase tid .selecting = some t := inPhase_eq_some.mpr ⟨h.txn, h.phase⟩
    show (s.inPhase tid .selecting).bind _ = _
    rw [hphase]
    simp [System.visit, hnext, h.free id, hwanted]
  · exact System.setTxn_self s tid _
  · rw [Txn.setScan_other t _ (by simp)]
    exact h.lease
  · intro other
    show (s.locks.acquire tid (t.lock id)).blocks tid (t.lock other) = false
    rw [LockTable.blocks_eq_false, LockTable.acquire]
    split
    · exact Or.inr rfl
    · exact LockTable.blocks_eq_false.mp (h.free other)
  · intro other hother
    rw [Txn.setScan_self] at hother
    exact h.wanted other (List.mem_of_mem_tail hother)

/-- The scan picks rows up to its limit, or all of them. -/
theorem Unlocked.visits (h : s.Unlocked tid t) (order : TriggerOrder) :
    ∃ visits s' t', runAllowed (step order) anyAction s
        (List.replicate visits (.visit tid .delete)) = some s' ∧
      s'.db = s.db ∧ s'.txns tid = some t' ∧ t'.op = t.op ∧ t'.now = t.now ∧ selected t' = true ∧
      (t'.scan .delete).picked = (t.scan .delete).picked ++
        (t.scan .delete).pending.take (t.scan .delete).wanted := by
  generalize hrows : (t.scan .delete).pending = rows
  induction rows generalizing s t with
  | nil =>
    refine ⟨0, s, t, rfl, rfl, h.txn, rfl, rfl, ?_, by simp⟩
    have hover : (t.scan .delete).next = none := Scan.next_eq_none.mpr (Or.inr hrows)
    simp [selected, hover, h.lease]
  | cons id rows ih =>
    by_cases hlimit : (t.scan .delete).wanted = 0
    · refine ⟨0, s, t, rfl, rfl, h.txn, rfl, rfl, ?_, by simp [hlimit]⟩
      have hover : (t.scan .delete).next = none := Scan.next_eq_none.mpr (Or.inl hlimit)
      simp [selected, hover, h.lease]
    · have hnext : (t.scan .delete).next = some id := by simp [Scan.next, hlimit, hrows]
      obtain ⟨s₁, hstep, hdb, h₁⟩ := h.visit order hnext
      have hscan := Txn.setScan_self t .delete ((t.scan .delete).pick id)
      obtain ⟨visits, s', t', hrun, hdb', ht', hop, hnow, hselected, hpicked⟩ :=
        ih h₁ (by rw [hscan, Scan.pick_pending, hrows]; rfl)
      refine ⟨visits + 1, s', t', ?_, hdb'.trans hdb, ht', hop, hnow, hselected, ?_⟩
      · rw [List.replicate_succ, runAllowed, List.foldlM_cons,
          if_pos (show anyAction s _ from trivial), hstep]
        exact hrun
      · rw [hpicked, hscan, Scan.pick_picked, Scan.pick_wanted, List.append_assoc]
        obtain ⟨limit, hsucc⟩ := Nat.exists_eq_succ_of_ne_zero hlimit
        rw [hsucc]
        rfl

end System

/-- The operation is one of the two cleaners' statements. -/
def Operation.cleans : Operation → Bool
  | processExpiredMessages _ | purgeDeadLetterMessages _ _ => true
  | _ => false

/-- What a cleaner's statement finds in its snapshot it still wants, as long as nobody has
    written. -/
theorem Txn.recheck_select {db : Database} (h : db.Valid) {t : Txn} (hcleans : t.op.cleans = true)
    {id : Uuid} (hid : id ∈ (t.op.select db t.now .delete).pending) :
    t.recheck db .delete id = some true := by
  match hop : t.op with
  | .processExpiredMessages batchSize =>
    rw [hop] at hid
    obtain ⟨m, hm, rfl⟩ := List.mem_map.mp hid
    obtain ⟨hm, hexpired⟩ := List.mem_filter.mp (mem_orderBy.mp hm)
    have hfind := (find?_key_eq_some h.messages.ids).mpr ⟨hm, rfl⟩
    simp [Txn.recheck, Txn.wants, Operation.isPurge, hop, hfind, hexpired]
  | .purgeDeadLetterMessages retentionSeconds batchSize =>
    rw [hop] at hid
    obtain ⟨d, hd, rfl⟩ := List.mem_map.mp hid
    obtain ⟨hd, hpurgeable⟩ := List.mem_filter.mp (mem_orderBy.mp hd)
    have hfind := (find?_key_eq_some h.deadLetterIds).mpr ⟨hd, rfl⟩
    simp [Txn.recheck, Txn.wantsDeadLetter, Operation.isPurge, hop, hfind, hpurgeable]
  | .createQueue _ | .updateQueue _ _ | .enqueueMessage _ _ _ | .dequeueMessage _ _
  | .acknowledgeMessage _ _ _ =>
    rw [hop] at hcleans
    simp [Operation.cleans] at hcleans

/-- **Where no row is locked, a cleaner's transaction does what its operation says**: `SKIP LOCKED`
    passes over nothing. -/
theorem cleaner_unlocked {s : System} (hs : Reachable order s) {tid : Nat} {t : Txn}
    (ht : s.txns tid = some t) (hphase : t.phase = .started) (hcleans : t.op.cleans = true)
    (hunlocked : ∀ id, s.locks.blocks tid (t.lock id) = false) :
    ∃ visits s' t', runAllowed (step order) anyAction s
        (.snapshot tid :: List.replicate visits (.visit tid .delete)) = some s' ∧
      s'.txns tid = some t' ∧ System.selected t' = true ∧ s'.db = s.db ∧
      t'.execute order s'.db = t.op.run order s.db t.now := by
  have hvalid := hs.inv.valid
  have hstart : s.inPhase tid .started = some t := System.inPhase_eq_some.mpr ⟨ht, hphase⟩
  have hdb : (s.takeSnapshot tid t).db = s.db := by
    have hnone : t.op.enqueuedId.isSome = false := by
      revert hcleans
      cases t.op <;> simp [Operation.cleans, Operation.enqueuedId]
    simp [System.takeSnapshot, hnone]
  have hunlocked' : (s.takeSnapshot tid t).Unlocked tid { t with
      phase := .selecting
      queue := t.op.target s.db
      scan := t.op.select s.db t.now
      enqueueOrder := s.db.enqueueOrderSequence } := by
    refine ⟨System.setTxn_self s tid _, rfl, ?_, hunlocked, fun id hid => ?_⟩
    · revert hcleans
      cases hop : t.op <;> simp [Operation.cleans, Operation.select, Scan.next, Scan.idle]
    · rw [hdb]
      refine Txn.recheck_select hvalid ?_ ?_
      · exact hcleans
      · exact hid
  obtain ⟨visits, s', t', hrun, hdb', ht', hop, hnow, hselected, hpicked⟩ :=
    hunlocked'.visits order
  rw [hdb] at hdb'
  refine ⟨visits, s', t', ?_, ht', hselected, hdb', ?_⟩
  · rw [runAllowed, List.foldlM_cons, if_pos (show anyAction s _ from trivial)]
    show ((s.inPhase tid .started).map _).bind _ = _
    rw [hstart]
    exact hrun
  · rw [hdb']
    have hop : t'.op = t.op := hop
    have hpicked : (t'.scan .delete).picked =
        (t.op.select s.db t.now .delete).picked ++
          (t.op.select s.db t.now .delete).pending.take (t.op.select s.db t.now .delete).wanted :=
      hpicked
    rw [Operation.select_picked, List.nil_append] at hpicked
    revert hcleans hpicked
    cases hcase : t.op with
    | processExpiredMessages batchSize =>
      intro _ hpicked
      rw [hcase] at hop
      simp only [Txn.execute, hop, hpicked, Operation.run, processExpiredMessages,
        Operation.select, Scan.start_pending, Scan.start_wanted, List.map_take]
    | purgeDeadLetterMessages retentionSeconds batchSize =>
      intro _ hpicked
      rw [hcase] at hop
      simp only [Txn.execute, hop, hpicked, Operation.run, purgeDeadLetterMessages,
        Operation.select, Scan.start_pending, Scan.start_wanted, List.map_take]
    | _ => simp [Operation.cleans]

/-- **A batch is exact, and one that is not full leaves nothing.**  In every database that the
    operations reach, each cleaner removes the first eligible rows, reports them per queue and in
    total, and at a fixed time takes its long sleep after one run more than there are full
    batches, with every eligible row removed and counted once. -/
theorem cleaner_batches (order : TriggerOrder) {db : Database} (h : db.Reached order) (now : Int)
    (batchSize : UInt32) (hbatch : 0 < batchSize.toNat) :
    (∃ db' summary,
      processExpiredMessages db now batchSize = (db', .processExpiredMessages summary) ∧
      ExpiredBatch db now batchSize db' summary) ∧
    (∀ fuel, db.queueMessage.countP (isExpired now) / batchSize.toNat < fuel →
      ∃ ts, turns (expiredMessageCleaner now batchSize) batchSize.toNat fuel db = some ts ∧
        Drains batchSize (·.queueMessage) removedMessages (isExpired now) db ts) ∧
    ∀ retentionSeconds,
      (∃ db' summary, purgeDeadLetterMessages db now retentionSeconds batchSize =
          (db', .purgeDeadLetterMessages summary) ∧
        PurgedBatch db now retentionSeconds batchSize db' summary) ∧
      ∀ fuel, db.queueDeadLetterMessage.countP (isPurgeable retentionSeconds now) /
          batchSize.toNat < fuel →
        ∃ ts, turns (deadLetterMessageCleaner now retentionSeconds batchSize) batchSize.toNat fuel
            db = some ts ∧
          Drains batchSize (·.queueDeadLetterMessage) removedDeadLetters
            (isPurgeable retentionSeconds now) db ts := by
  have hvalid := h.valid
  refine ⟨?_, fun fuel hfuel => ?_, fun retentionSeconds => ⟨?_, fun fuel hfuel => ?_⟩⟩
  · obtain ⟨db', summary, hrun, hbatch, -⟩ := processExpiredMessages_batch hvalid now batchSize
    exact ⟨db', summary, hrun, hbatch⟩
  · refine drains_of_takesFirst (expiredMessageCleaner_takesFirst now batchSize)
      (fun db => orderBy_perm _ _) (fun db h => ?_) hbatch hvalid hfuel
    obtain ⟨shards, hrun, -⟩ := processExpiredMessages_eq h now batchSize
    simp only [expiredMessageCleaner, hrun]
    rw [removedMessages, removedRows_filter]
    exact filter_firstKeys_perm h.messages.ids expiryOrder (isExpired now) batchSize.toNat
  · obtain ⟨db', summary, hrun, hbatch, -⟩ :=
      purgeDeadLetterMessages_batch hvalid now retentionSeconds batchSize
    exact ⟨db', summary, hrun, hbatch⟩
  · refine drains_of_takesFirst
      (deadLetterMessageCleaner_takesFirst now retentionSeconds batchSize)
      (fun db => orderBy_perm _ _) (fun db h => ?_) hbatch hvalid hfuel
    simp only [deadLetterMessageCleaner, purgeDeadLetterMessages_eq]
    rw [removedDeadLetters, removedRows_filter]
    exact filter_firstKeys_perm h.deadLetterIds purgeOrder (isPurgeable retentionSeconds now)
      batchSize.toNat

/-- Three messages that expire, one of them after a delivery. -/
def expiredOrders : List Call := [
  ⟨0, .createQueue (ordersQueue 5 fiveAttempts_inRange)⟩,
  ⟨0, .enqueueMessage 1 (orderMessage 7) 60⟩,
  ⟨0, .dequeueMessage 1 11⟩,
  ⟨1, .enqueueMessage 1 (orderMessage 8) 50⟩,
  ⟨2, .enqueueMessage 1 (orderMessage 9) 50⟩]

/-- In batches of two they take two runs. -/
theorem cleaner_batches_expiredOrders : ∃ ts,
    turns (expiredMessageCleaner (seconds 60) 2) 2 2
        (finalDatabase .deleteFirst .empty expiredOrders) = some ts ∧
      ts.length = 2 ∧ (ts.flatMap fun t => removedMessages t.before t.after).length = 3 := by
  have hreached : (finalDatabase .deleteFirst .empty expiredOrders).Reached .deleteFirst :=
    Or.inl ⟨expiredOrders, rfl⟩
  have hthree : (finalDatabase .deleteFirst .empty expiredOrders).queueMessage.countP
      (isExpired (seconds 60)) = 3 := by decide +kernel
  obtain ⟨-, hloop, -⟩ := cleaner_batches .deleteFirst hreached (seconds 60) 2 (by decide)
  obtain ⟨ts, hts, hdrains⟩ := hloop 2 (by rw [hthree]; decide)
  refine ⟨ts, hts, ?_, ?_⟩
  · rw [hdrains.length, hthree]
    rfl
  · rw [hdrains.once.length_eq, ← List.countP_eq_length_filter]
    exact hthree

end Retsu
