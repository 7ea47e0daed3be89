/-
  The order in which transactions lock counter rows.

  Each trigger call locks its counter rows in ascending order.  A statement with one trigger
  keeps to the order; a dequeue fires two, and what its DELETE trigger and its UPDATE trigger
  lock together is in order only if the dead-lettered messages and the leased one are
  (`Txn.adjusted_sorted_iff`).  Two dequeues that are not can wait for each other.
-/
import Retsu.SessionInvariant

namespace Retsu

open Relational Concurrency

variable {order : TriggerOrder} {s s' : System} {tid : Nat} {t : Txn}

/-! ## Waiting for counter rows -/

def System.counterLocks (s : System) : LockTable ShardKey Nat := fun key => s.locks (.counter key)

/-- The counter row that a transaction asks for. -/
def System.nextCounter (s : System) (tid : Nat) : Option ShardKey :=
  (s.txns tid).bind fun t => if t.phase = .counting then t.counters.head? else none

/-- Transactions wait in a circle for each other's counter rows. -/
def System.CounterDeadlock (s : System) : Prop := Deadlock s.counterLocks s.nextCounter

/-! ## What the triggers of a statement lock -/

/-- One trigger call goes through its counter rows in ascending order. -/
theorem Statement.adjustedShards_singleton {statement : Statement} {event : TriggerEvent}
    (hfires : statement.fires = [event]) (messages : List QueueMessage) :
    (statement.adjustedShards messages).Pairwise (· ≤ ·) := by
  rw [Statement.adjustedShards, hfires, List.flatMap_singleton]
  exact (Statement.changes_sorted _).imp le_of_lt

/-- The DELETE trigger locks the counter rows of the deleted messages. -/
theorem mem_deleteChanges {deleted : List QueueMessage} {key : ShardKey} :
    key ∈ (TransitionTables.delete deleted).changes.map Prod.fst ↔
      ∃ m ∈ deleted, m.shardKey = key := by
  rw [TransitionTables.changes, groupedNegatedCounts, aggregate_keys, mem_groupKeys]

/-- The UPDATE trigger locks the counter row of a message that was READY before its lease. -/
theorem mem_leaseChanges {candidate : Option QueueMessage} {receiptHandle : Uuid}
    {now visibility : Int} {key : ShardKey} :
    key ∈ (TransitionTables.update candidate.toList
        (candidate.map fun m => m.lease receiptHandle now visibility).toList).changes.map Prod.fst ↔
      ∃ m ∈ candidate, m.state = .ready ∧ m.shardKey = key := by
  cases candidate with
  | none => simp [TransitionTables.changes, exitsEarly, fullJoin]
  | some m =>
    have hid : (m.lease receiptHandle now visibility).id = m.id := rfl
    have hkey : (m.lease receiptHandle now visibility).shardKey = m.shardKey := rfl
    have hexit : exitsEarly [m] [m.lease receiptHandle now visibility] ↔ m.state ≠ .ready := by
      have hjoin : fullJoin [m] [m.lease receiptHandle now visibility] =
          [(some m, some (m.lease receiptHandle now visibility))] := by
        simp [fullJoin, hid]
      rw [exitsEarly, hjoin]
      cases hstate : m.state <;> simp [isStateChange, QueueMessage.lease, hstate]
    simp only [Option.toList_some, Option.map_some, Option.mem_some_iff, exists_eq_left']
    rw [TransitionTables.changes]
    by_cases hready : m.state = .ready
    · rw [if_neg (by simpa [hexit] using hready), mem_netTotals_keys, totalAt_append,
        totalAt_groupedNegatedCounts, totalAt_groupedCounts]
      by_cases hk : m.shardKey = key
      · simp [tableCounts, hk, hready, QueueMessage.lease]
      · simp [tableCounts, hkey, hk]
    · rw [if_pos (hexit.mpr hready)]
      simp [hready]

/-- The counter rows of a dequeue, in the order of its triggers. -/
theorem DequeueSelection.adjustedShards {db : Database} (h : db.Valid) {queue : QueueRow} {now : Int}
    {exhausted : List QueueMessage} {candidate : Option QueueMessage}
    (hsel : DequeueSelection db queue now exhausted candidate) (order : TriggerOrder)
    (receiptHandle : Uuid) :
    (dequeueStatement order receiptHandle now queue.visibilityTimeoutSeconds (exhausted.map (·.id))
        (candidate.map (·.id))).adjustedShards db.queueMessage =
      let deleted := (TransitionTables.delete (db.queueMessage.filter
        fun m => m.id ∈ exhausted.map (·.id))).changes.map Prod.fst
      let leased := (TransitionTables.update candidate.toList (candidate.map fun m =>
        m.lease receiptHandle now queue.visibilityTimeoutSeconds).toList).changes.map Prod.fst
      match order with
      | .deleteFirst => deleted ++ leased
      | .updateFirst => leased ++ deleted := by
  have hold : (updatedRows (dequeueStatement order receiptHandle now queue.visibilityTimeoutSeconds
      (exhausted.map (·.id)) (candidate.map (·.id))).change db.queueMessage).map Prod.fst =
        candidate.toList := by
    rw [dequeueStatement_updated, filter_candidate h.messages.ids
      (fun m hm => (hsel.candidate m hm).1) (hsel.disjoint h)]
    cases candidate <;> rfl
  have hdelete : (dequeueStatement order receiptHandle now queue.visibilityTimeoutSeconds
      (exhausted.map (·.id)) (candidate.map (·.id))).transitionTables db.queueMessage .delete =
        .delete (db.queueMessage.filter fun m => m.id ∈ exhausted.map (·.id)) := by
    rw [Statement.transitionTables, dequeueStatement_deleted]
  have hupdate : (dequeueStatement order receiptHandle now queue.visibilityTimeoutSeconds
      (exhausted.map (·.id)) (candidate.map (·.id))).transitionTables db.queueMessage .update =
        .update candidate.toList (candidate.map fun m =>
          m.lease receiptHandle now queue.visibilityTimeoutSeconds).toList := by
    rw [Statement.transitionTables, hold, hsel.leased order receiptHandle h]
  rw [Statement.adjustedShards]
  cases order with
  | deleteFirst =>
    show [TriggerEvent.delete, .update].flatMap _ = _
    simp only [List.flatMap_cons, List.flatMap_nil, List.append_nil, hdelete, hupdate]
  | updateFirst =>
    show [TriggerEvent.update, .delete].flatMap _ = _
    simp only [List.flatMap_cons, List.flatMap_nil, List.append_nil, hdelete, hupdate]

/-! ## One transaction -/

/-- A dequeue dead-letters messages and leases a READY one whose counter rows are in the order
    in which its triggers fire. -/
def Txn.CountsInOrder (order : TriggerOrder) (s : System) (t : Txn) : Prop :=
  ∀ e ∈ s.db.queueMessage, ∀ m ∈ s.db.queueMessage, e.id ∈ (t.scan .delete).picked →
    m.id ∈ (t.scan .lease).picked → m.state = .ready →
    match order with
    | .deleteFirst => e.shardKey ≤ m.shardKey
    | .updateFirst => m.shardKey ≤ e.shardKey

instance (order : TriggerOrder) (s : System) (t : Txn) : Decidable (t.CountsInOrder order s) :=
  match order with
  | .deleteFirst => inferInstanceAs (Decidable (∀ e ∈ s.db.queueMessage, ∀ m ∈ s.db.queueMessage,
      e.id ∈ (t.scan .delete).picked → m.id ∈ (t.scan .lease).picked → m.state = .ready →
        e.shardKey ≤ m.shardKey))
  | .updateFirst => inferInstanceAs (Decidable (∀ e ∈ s.db.queueMessage, ∀ m ∈ s.db.queueMessage,
      e.id ∈ (t.scan .delete).picked → m.id ∈ (t.scan .lease).picked → m.state = .ready →
        m.shardKey ≤ e.shardKey))

/-- Two sorted lists, one after the other. -/
theorem pairwise_append_iff {α : Type} [LinearOrder α] {as bs : List α}
    (ha : as.Pairwise (· ≤ ·)) (hb : bs.Pairwise (· ≤ ·)) :
    (as ++ bs).Pairwise (· ≤ ·) ↔ ∀ a ∈ as, ∀ b ∈ bs, a ≤ b := by
  rw [List.pairwise_append]
  exact ⟨fun h => h.2.2, fun h => ⟨ha, hb, h⟩⟩

/-- Only a dequeue that has found its queue leases a message. -/
theorem System.Inv.leased_dequeue (h : s.Inv) (ht : s.txns tid = some t) (hactive : t.phase.active)
    {id : Uuid} (hleased : id ∈ (t.scan .lease).picked) :
    (∃ queueId receiptHandle, t.op = .dequeueMessage queueId receiptHandle) ∧ t.queue ≠ none := by
  have hrecheck := ((h.txn tid t ht hactive).picked .lease id hleased).2
  cases hpurge : t.op.isPurge with
  | true =>
    obtain ⟨d, -, -, hwants⟩ := (Txn.recheck_deadLetter h.valid hpurge).mp hrecheck
    simp [Txn.wantsDeadLetter] at hwants
  | false =>
    obtain ⟨r, -, -, hwants⟩ := (Txn.recheck_message h.valid hpurge).mp hrecheck
    cases hop : t.op with
    | dequeueMessage queueId receiptHandle =>
      refine ⟨⟨queueId, receiptHandle, rfl⟩, fun hnone => ?_⟩
      simp [Txn.wants, hop, hnone] at hwants
    | _ => simp [Txn.wants, hop] at hwants

/-- A dequeue adjusts its counter rows in ascending order exactly when its dead letters and its
    lease are in order. -/
theorem System.Inv.dequeue_sorted_iff (h : s.Inv) (order : TriggerOrder)
    (ht : s.txns tid = some t) (hactive : t.phase.active) {queueId receiptHandle : Uuid}
    (hop : t.op = .dequeueMessage queueId receiptHandle) {queue : QueueRow}
    (hqueue : t.queue = some queue) :
    (t.adjusted order s.db).Pairwise (· ≤ ·) ↔ t.CountsInOrder order s := by
  obtain ⟨exhausted, candidate, hsel, hexhausted, hcandidate, hleased⟩ :=
    (h.txn tid t ht hactive).dequeueSelection h.valid hqueue
  have hcounters := hsel.adjustedShards h.valid order receiptHandle
  rw [hexhausted, hcandidate] at hcounters
  simp only [Txn.adjusted, hop, hqueue, hcounters]
  have hdelete : ∀ {key : ShardKey}, key ∈ (TransitionTables.delete (s.db.queueMessage.filter
      fun m => m.id ∈ (t.scan .delete).picked)).changes.map Prod.fst ↔
      ∃ e ∈ s.db.queueMessage, e.id ∈ (t.scan .delete).picked ∧ e.shardKey = key := by
    intro key
    simp [mem_deleteChanges, and_assoc]
  have hupdate : ∀ {key : ShardKey}, key ∈ (TransitionTables.update candidate.toList
      (candidate.map fun m => m.lease receiptHandle t.now
        queue.visibilityTimeoutSeconds).toList).changes.map Prod.fst ↔
      ∃ m ∈ s.db.queueMessage, m.id ∈ (t.scan .lease).picked ∧ m.state = .ready ∧
        m.shardKey = key := by
    intro key
    rw [mem_leaseChanges]
    constructor
    · rintro ⟨m, hm, hready, hkey⟩
      have hmem := (hsel.candidate m hm).1
      exact ⟨m, hmem, (hleased m hmem).mpr hm, hready, hkey⟩
    · rintro ⟨m, hmem, hpicked, hready, hkey⟩
      exact ⟨m, (hleased m hmem).mp hpicked, hready, hkey⟩
  have hsorted : ∀ tables : TransitionTables, (tables.changes.map Prod.fst).Pairwise (· ≤ ·) :=
    fun tables => (Statement.changes_sorted tables).imp le_of_lt
  cases order with
  | deleteFirst =>
    rw [pairwise_append_iff (hsorted _) (hsorted _)]
    constructor
    · intro hall e he m hm hpicked hleased hready
      exact hall _ (hdelete.mpr ⟨e, he, hpicked, rfl⟩)
        _ (hupdate.mpr ⟨m, hm, hleased, hready, rfl⟩)
    · intro hall a ha b hb
      obtain ⟨e, he, hpicked, rfl⟩ := hdelete.mp ha
      obtain ⟨m, hm, hleased, hready, rfl⟩ := hupdate.mp hb
      exact hall e he m hm hpicked hleased hready
  | updateFirst =>
    rw [pairwise_append_iff (hsorted _) (hsorted _)]
    constructor
    · intro hall e he m hm hpicked hleased hready
      exact hall _ (hupdate.mpr ⟨m, hm, hleased, hready, rfl⟩)
        _ (hdelete.mpr ⟨e, he, hpicked, rfl⟩)
    · intro hall a ha b hb
      obtain ⟨m, hm, hleased, hready, rfl⟩ := hupdate.mp ha
      obtain ⟨e, he, hpicked, rfl⟩ := hdelete.mp hb
      exact hall e he m hm hpicked hleased hready

/-- **A transaction locks its counter rows in order exactly when its dead letters and its lease
    are in order.** -/
theorem System.Inv.adjusted_sorted_iff (h : s.Inv) (order : TriggerOrder)
    (ht : s.txns tid = some t) (hactive : t.phase.active) :
    (t.adjusted order s.db).Pairwise (· ≤ ·) ↔ t.CountsInOrder order s := by
  -- all statements but a dequeue lease nothing and fire one trigger at most
  have hlease : (∀ queueId receiptHandle, t.op ≠ .dequeueMessage queueId receiptHandle) ∨
      t.queue = none → t.CountsInOrder order s := by
    intro hno e he m hm hpicked hleased
    obtain ⟨⟨queueId, receiptHandle, hop⟩, hqueue⟩ := h.leased_dequeue ht hactive hleased
    rcases hno with hno | hno
    · exact absurd hop (hno queueId receiptHandle)
    · exact absurd hno hqueue
  cases hop : t.op with
  | createQueue | updateQueue | purgeDeadLetterMessages =>
    refine iff_of_true ?_ (hlease (Or.inl (by simp [hop])))
    simp [Txn.adjusted, hop]
  | enqueueMessage | acknowledgeMessage | processExpiredMessages =>
    refine iff_of_true ?_ (hlease (Or.inl (by simp [hop])))
    simp only [Txn.adjusted, hop]
    exact Statement.adjustedShards_singleton rfl _
  | dequeueMessage queueId receiptHandle =>
    cases hqueue : t.queue with
    | none =>
      refine iff_of_true ?_ (hlease (Or.inr hqueue))
      simp [Txn.adjusted, hop, hqueue]
    | some queue => exact h.dequeue_sorted_iff order ht hactive hop hqueue

/-! ## Whole runs -/

/-- Before the triggers of a transaction begin, its dead letters and its lease are in order. -/
def AdjustsInOrder (order : TriggerOrder) (s : System) : Action → Prop
  | .count tid => ∀ t ∈ s.txns tid, t.CountsInOrder order s
  | _ => True

instance (order : TriggerOrder) (s : System) (a : Action) : Decidable (AdjustsInOrder order s a) :=
  match a with
  | .count tid => inferInstanceAs (Decidable (∀ t ∈ s.txns tid, t.CountsInOrder order s))
  | .visit _ _ | .tick _ | .start _ _ | .snapshot _ | .lockCounter _ | .commit _ | .abort _ =>
    inferInstanceAs (Decidable True)

/-- A transaction goes through its counter rows in ascending order. -/
structure Txn.InOrder (s : System) (tid : Nat) (t : Txn) : Prop where
  sorted : t.phase = .counting → t.counters.Pairwise (· ≤ ·)
  held : ∀ key, s.locks (.counter key) = some tid →
    t.phase = .counting ∧ ∀ asked ∈ t.counters, key ≤ asked

/-- The locks of rows are not those of counter rows. -/
theorem acquire_message_counter (locks : LockTable Lock Nat) (tid : Nat) (t : Txn) (id : Uuid)
    (key : ShardKey) : locks.acquire tid (t.lock id) (.counter key) = locks (.counter key) := by
  rw [LockTable.acquire, if_neg]
  unfold Txn.lock
  split <;> simp

/-- In a run whose dequeues are in order every transaction keeps to the order. -/
theorem inOrder_of_execution (h : Execution (step order) (AdjustsInOrder order) .initial s) :
    ∀ tid t, s.txns tid = some t → t.InOrder s tid := by
  refine h.invariant (I := fun s => ∀ tid t, s.txns tid = some t → t.InOrder s tid)
    (by simp [System.initial]) fun s a s' hrun ih hallowed hstep => ?_
  have hinv := Reachable.inv hrun.any
  -- one transaction goes on; what the others hold stays as it is
  have hset : ∀ {actor : Nat} {u : Txn} {s' : System}, s'.txns = (s.setTxn actor u).txns →
      (∀ key other, other ≠ actor → s'.locks (.counter key) = some other →
        s.locks (.counter key) = some other) → u.InOrder s' actor →
      ∀ tid t, s'.txns tid = some t → t.InOrder s' tid := by
    intro actor u s' htxns hlocks hu tid t ht
    rw [htxns] at ht
    by_cases hactor : tid = actor
    · subst hactor
      obtain rfl := Option.some.inj ((s.setTxn_self tid u).symm.trans ht)
      exact hu
    · have hold := ih tid t ((s.setTxn_other u hactor).symm.trans ht)
      exact ⟨hold.sorted, fun key hkey => hold.held key (hlocks key tid hactor hkey)⟩
  -- a transaction that is not counting holds no counter rows
  have hnone : ∀ {tid : Nat} {t : Txn}, s.txns tid = some t → t.phase ≠ .counting → ∀ key,
      s.locks (.counter key) ≠ some tid :=
    fun ht hphase key hkey => hphase ((ih _ _ ht).held key hkey).1
  cases step_cases hstep with
  | tick =>
    exact fun tid t ht => ⟨(ih tid t ht).sorted, (ih tid t ht).held⟩
  | @start actor op hidle =>
    refine hset rfl (fun _ _ _ h => h)
      ⟨fun hphase => by simp [Txn.begin] at hphase, fun key hkey => ?_⟩
    obtain ⟨u, hu, -⟩ := hinv.holder _ _ hkey
    rw [hidle] at hu
    simp at hu
  | snapshot ht hphase =>
    refine hset rfl (fun _ _ _ h => h) ⟨fun hphase' => by simp at hphase', fun key hkey => ?_⟩
    exact absurd hkey (hnone ht (by simp [hphase]) key)
  | @pass actor u selection id ht hphase =>
    refine hset rfl (fun _ _ _ h => h) ⟨fun hphase' => ?_, fun key hkey => ?_⟩
    · simp [Txn.setScan, hphase] at hphase'
    · exact absurd hkey (hnone ht (by simp [hphase]) key)
  | @reject actor u selection id ht hphase hnext hfree =>
    have hkeeps := acquire_message_counter s.locks actor u id
    refine hset rfl (fun key other _ h => (hkeeps key).symm.trans h)
      ⟨fun hphase' => ?_, fun key hkey => ?_⟩
    · simp [Txn.setScan, hphase] at hphase'
    · exact absurd ((hkeeps key).symm.trans hkey) (hnone ht (by simp [hphase]) key)
  | @pick actor u selection id ht hphase hnext hfree =>
    have hkeeps := acquire_message_counter s.locks actor u id
    refine hset rfl (fun key other _ h => (hkeeps key).symm.trans h)
      ⟨fun hphase' => ?_, fun key hkey => ?_⟩
    · simp [Txn.setScan, hphase] at hphase'
    · exact absurd ((hkeeps key).symm.trans hkey) (hnone ht (by simp [hphase]) key)
  | @count actor u ht hphase =>
    refine hset rfl (fun _ _ _ h => h) ⟨fun _ => ?_, fun key hkey => ?_⟩
    · exact (hinv.adjusted_sorted_iff order ht (by simp [hphase, Phase.active])).mpr
        (hallowed u ht)
    · exact absurd hkey (hnone ht (by simp [hphase]) key)
  | @lockCounter actor u key rest ht hphase hnext hfree =>
    have hold := ih actor u ht
    have hsorted := hold.sorted hphase
    rw [hnext, List.pairwise_cons] at hsorted
    refine hset rfl (fun key' other hne h => (LockTable.acquire_other hfree hne).mp h)
      ⟨fun _ => hsorted.2, fun held hheld => ⟨hphase, ?_⟩⟩
    rcases LockTable.acquire_eq_some.mp hheld with ⟨heq, -⟩ | ⟨-, hheld⟩
    · obtain rfl : held = key := Lock.counter.inj heq
      exact hsorted.1
    · exact fun asked hasked => (hold.held held hheld).2 asked (by simp [hnext, hasked])
  | @commit actor u ht hphase hcounters =>
    refine hset rfl (fun key other _ h => (LockTable.release_eq_some.mp h).1)
      ⟨fun hphase' => by simp at hphase', fun key hkey => ?_⟩
    exact absurd rfl (LockTable.release_eq_some.mp hkey).2
  | @abort actor u ht hactive =>
    refine hset rfl (fun key other _ h => (LockTable.release_eq_some.mp h).1)
      ⟨fun hphase' => by simp at hphase', fun key hkey => ?_⟩
    exact absurd rfl (LockTable.release_eq_some.mp hkey).2

/-- **Transactions do not wait in a circle for counter rows, when their dead letters and leases
    are in order.**  In every run whose dequeues are of this kind each transaction asks for its
    counter rows in ascending order, so there is no deadlock; and in any run, a transaction
    that is about to fire its triggers locks counter rows in ascending order if and only if it
    is of this kind.  This covers more runs than PostgreSQL has, where a dequeue that violates a
    check of its rows fails before it locks any counter row. -/
theorem counter_locks (h : Execution (step order) (AdjustsInOrder order) .initial s) :
    ¬s.CounterDeadlock ∧ InLockOrder s.counterLocks s.nextCounter ∧
      ∀ s, Reachable order s → ∀ tid t, s.txns tid = some t → t.phase.active →
        ((t.adjusted order s.db).Pairwise (· ≤ ·) ↔ t.CountsInOrder order s) := by
  have horder : InLockOrder s.counterLocks s.nextCounter := by
    intro tid held asked hheld hasked
    obtain ⟨t, ht, hasked⟩ := Option.bind_eq_some_iff.mp hasked
    split at hasked
    · exact ((inOrder_of_execution h tid t ht).held held hheld).2 asked
        (List.mem_of_mem_head? hasked)
    · simp at hasked
  exact ⟨horder.no_deadlock, horder, fun _ hreachable _ _ ht hactive =>
    hreachable.inv.adjusted_sorted_iff order ht hactive⟩

/-- Two messages that have had their one attempt and two that have had none, and two dequeues.
    The first dead-letters a message of shard 5 and leases one of shard 3, the second
    dead-letters one of shard 3 and leases one of shard 5. -/
def crossedOrders : List Action :=
  transaction 0 (.createQueue (ordersQueue 1 oneAttempt_inRange)) [] 0 ++
    transaction 1 (.enqueueMessage 1 (orderMessage 5) 60) [] 1 ++
    transaction 2 (.enqueueMessage 1 (orderMessage 35) 60) [] 1 ++
    transaction 3 (.dequeueMessage 1 11) [.lease] 1 ++ [.tick 1] ++
    transaction 4 (.dequeueMessage 1 12) [.lease] 1 ++
    transaction 5 (.enqueueMessage 1 (orderMessage 67) 60) [] 1 ++
    transaction 6 (.enqueueMessage 1 (orderMessage 101) 60) [] 1 ++
    [.tick 1000000, .start 7 (.dequeueMessage 1 13), .snapshot 7, .visit 7 .delete,
      .visit 7 .lease, .count 7, .lockCounter 7] ++
    -- the second dequeue passes over what the first has locked
    [.tick 1000001, .start 8 (.dequeueMessage 1 14), .snapshot 8, .visit 8 .delete,
      .visit 8 .delete, .visit 8 .lease, .visit 8 .lease, .count 8, .lockCounter 8]

/-- Two transactions that ask for a counter row of each other. -/
theorem System.counterDeadlock_of_two {tid tid' : Nat} {key key' : ShardKey} (hne : tid ≠ tid')
    (hnext : s.nextCounter tid = some key) (hheld : s.counterLocks key = some tid')
    (hnext' : s.nextCounter tid' = some key') (hheld' : s.counterLocks key' = some tid) :
    s.CounterDeadlock :=
  ⟨tid, .tail (.single ⟨key, hnext, hheld, hne.symm⟩) ⟨key', hnext', hheld', hne⟩⟩

/-- The two dequeues of `crossedOrders` wait for each other, whichever trigger fires first. -/
theorem counter_locks_crossedOrders :
    (¬∀ s, Reachable .deleteFirst s → ¬s.CounterDeadlock) ∧
      ¬∀ s, Reachable .updateFirst s → ¬s.CounterDeadlock := by
  constructor
  · intro hall
    have hrun : (runActions .deleteFirst crossedOrders).map (fun s => (s.nextCounter 7,
        s.counterLocks ⟨1, 3, 3⟩, s.nextCounter 8, s.counterLocks ⟨1, 3, 5⟩)) =
          some (some ⟨1, 3, 3⟩, some 8, some ⟨1, 3, 5⟩, some 7) := by
      decide +kernel
    obtain ⟨s, hs, hlocks⟩ := Option.map_eq_some_iff.mp hrun
    simp only [Prod.mk.injEq] at hlocks
    obtain ⟨hnext, hheld, hnext', hheld'⟩ := hlocks
    exact hall s (reachable_of_runActions hs)
      (System.counterDeadlock_of_two (by decide) hnext hheld hnext' hheld')
  · intro hall
    have hrun : (runActions .updateFirst crossedOrders).map (fun s => (s.nextCounter 7,
        s.counterLocks ⟨1, 3, 5⟩, s.nextCounter 8, s.counterLocks ⟨1, 3, 3⟩)) =
          some (some ⟨1, 3, 5⟩, some 8, some ⟨1, 3, 3⟩, some 7) := by
      decide +kernel
    obtain ⟨s, hs, hlocks⟩ := Option.map_eq_some_iff.mp hrun
    simp only [Prod.mk.injEq] at hlocks
    obtain ⟨hnext, hheld, hnext', hheld'⟩ := hlocks
    exact hall s (reachable_of_runActions hs)
      (System.counterDeadlock_of_two (by decide) hnext hheld hnext' hheld')

/-- An enqueue that waits for the counter row which a dequeue has locked. -/
theorem counter_locks_oneOrder : ∃ s,
    runAllowed (step .deleteFirst) (AdjustsInOrder .deleteFirst) .initial (oneOrder 5 (by decide) ++
      [.start 2 (.dequeueMessage 1 11), .snapshot 2, .visit 2 .lease, .count 2, .lockCounter 2,
        .start 3 (.enqueueMessage 1 (orderMessage 39) 60), .snapshot 3, .count 3]) = some s ∧
    s.nextCounter 3 = some ⟨1, 3, 7⟩ ∧ s.counterLocks ⟨1, 3, 7⟩ = some 2 ∧
    ¬s.CounterDeadlock := by
  have hrun : (runAllowed (step .deleteFirst) (AdjustsInOrder .deleteFirst) .initial
      (oneOrder 5 (by decide) ++
        [.start 2 (.dequeueMessage 1 11), .snapshot 2, .visit 2 .lease, .count 2, .lockCounter 2,
          .start 3 (.enqueueMessage 1 (orderMessage 39) 60), .snapshot 3, .count 3])).map
        (fun s => (s.nextCounter 3, s.counterLocks ⟨1, 3, 7⟩)) = some (some ⟨1, 3, 7⟩, some 2) := by
    decide +kernel
  obtain ⟨s, hs, hlocks⟩ := Option.map_eq_some_iff.mp hrun
  simp only [Prod.mk.injEq] at hlocks
  exact ⟨s, hs, hlocks.1, hlocks.2, (counter_locks (execution_of_runAllowed hs)).1⟩

end Retsu
