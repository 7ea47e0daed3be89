/-
  What holds in every state that concurrent transactions reach.

  A transaction that has picked a row holds its lock, and the newest version of the row is still
  wanted: nobody else can change it.  So a transaction that commits has one of the effects that
  `Effect` lists, just as if it ran alone.
-/
import Retsu.Sessions

namespace Retsu

open Relational Concurrency

variable {order : TriggerOrder} {s s' : System} {tid : Nat} {t : Txn}

/-! ## Re-checking a row -/

theorem Txn.recheck_message {db : Database} (h : db.Valid) (ht : t.op.isPurge = false)
    {selection : Selection} {id : Uuid} {b : Bool} :
    t.recheck db selection id = some b ↔
      ∃ m ∈ db.queueMessage, m.id = id ∧ t.wants selection m = b := by
  simp only [Txn.recheck, ht, Bool.false_eq_true, if_false, Option.map_eq_some_iff,
    find?_key_eq_some h.messages.ids, and_assoc]

theorem Txn.recheck_deadLetter {db : Database} (h : db.Valid) (ht : t.op.isPurge = true)
    {selection : Selection} {id : Uuid} {b : Bool} :
    t.recheck db selection id = some b ↔
      ∃ d ∈ db.queueDeadLetterMessage, d.id = id ∧ t.wantsDeadLetter selection d = b := by
  simp only [Txn.recheck, ht, if_true, Option.map_eq_some_iff, find?_key_eq_some h.deadLetterIds,
    and_assoc]

/-- No row has the identifier any more. -/
theorem Txn.recheck_none {db : Database} (ht : t.op.isPurge = false) {selection : Selection}
    {id : Uuid} : t.recheck db selection id = none ↔ ∀ m ∈ db.queueMessage, m.id ≠ id := by
  simp [Txn.recheck, ht]

/-! ## The invariant -/

/-- An active transaction, in a state of the system. -/
structure Txn.Inv (s : System) (tid : Nat) (t : Txn) : Prop where
  now_le : t.now ≤ s.clock
  messageId : ∀ id ∈ t.op.enqueuedId, id ∈ s.messageIds ∧ (∀ m ∈ s.db.queueMessage, m.id ≠ id) ∧
    ∀ d ∈ s.db.queueDeadLetterMessage, d.id ≠ id
  handle : ∀ receiptHandle ∈ t.op.drawnHandle, receiptHandle ∈ s.receiptHandles ∧
    ∀ m ∈ s.db.queueMessage, m.receiptHandle ≠ some receiptHandle
  drawn : t.op.enqueuedId.isSome → t.enqueueOrder < s.db.enqueueOrderSequence
  queue : ∀ q ∈ t.queue, Checked queueChecks q ∧ ∃ receiptHandle,
    t.op = .dequeueMessage q.id receiptHandle
  deletes : ∃ limit, (t.scan .delete).WellFormed limit
  leases : ∃ limit ≤ 1, (t.scan .lease).WellFormed limit
  picked : ∀ selection, ∀ id ∈ (t.scan selection).picked,
    s.locks (t.lock id) = some tid ∧ t.recheck s.db selection id = some true

structure System.Inv (s : System) : Prop where
  valid : s.db.Valid
  disjoint : ∀ m ∈ s.db.queueMessage, ∀ d ∈ s.db.queueDeadLetterMessage, d.id ≠ m.id
  sequence : 0 < s.db.enqueueOrderSequence
  enqueuedAt : ∀ m ∈ s.db.queueMessage, m.enqueuedAt ≤ s.clock
  messageIds : ∀ m ∈ s.db.queueMessage, m.id ∈ s.messageIds
  deadLetterIds : ∀ d ∈ s.db.queueDeadLetterMessage, d.id ∈ s.messageIds
  receiptHandles : ∀ m ∈ s.db.queueMessage, ∀ receiptHandle ∈ m.receiptHandle,
    receiptHandle ∈ s.receiptHandles
  txn : ∀ tid t, s.txns tid = some t → t.phase.active → t.Inv s tid
  holder : ∀ k tid, s.locks k = some tid → ∃ t, s.txns tid = some t ∧ t.phase.active
  /-- No two transactions have drawn the same identifier. -/
  distinct : ∀ tid tid' t t', s.txns tid = some t → s.txns tid' = some t' → t.phase.active →
    t'.phase.active →
    (∃ id, t.op.enqueuedId = some id ∧ t'.op.enqueuedId = some id) ∨
      (∃ receiptHandle, t.op.drawnHandle = some receiptHandle ∧
        t'.op.drawnHandle = some receiptHandle) → tid = tid'

theorem System.initial_inv : System.initial.Inv where
  valid := Database.empty_valid
  disjoint := by simp [System.initial, Database.empty]
  sequence := by simp [System.initial, Database.empty]
  enqueuedAt := by simp [System.initial, Database.empty]
  messageIds := by simp [System.initial, Database.empty]
  deadLetterIds := by simp [System.initial, Database.empty]
  receiptHandles := by simp [System.initial, Database.empty]
  txn := by simp [System.initial]
  holder := by simp [System.initial, LockTable.empty]
  distinct := by simp [System.initial]

/-! ## Committing -/

/-- The rows a transaction has picked, where it picks messages. -/
theorem Txn.Inv.rows (h : t.Inv s tid) (hvalid : s.db.Valid) (hpurge : t.op.isPurge = false)
    (selection : Selection) :
    ∃ rows : List QueueMessage, rows.map (·.id) = (t.scan selection).picked ∧
      ∀ m ∈ rows, m ∈ s.db.queueMessage ∧ t.wants selection m := by
  refine exists_rows_of_keys fun id hid => ?_
  exact (recheck_message hvalid hpurge).mp (h.picked selection id hid).2

/-- Only live messages are picked for a lease. -/
theorem Txn.Inv.leased_row (h : t.Inv s tid) (hvalid : s.db.Valid) {id : Uuid}
    (hid : id ∈ (t.scan .lease).picked) :
    t.op.isPurge = false ∧ ∃ m ∈ s.db.queueMessage, m.id = id ∧ t.wants .lease m = true := by
  have hrecheck := (h.picked .lease id hid).2
  cases hpurge : t.op.isPurge with
  | true =>
    obtain ⟨d, -, -, hwants⟩ := (recheck_deadLetter hvalid hpurge).mp hrecheck
    simp [Txn.wantsDeadLetter] at hwants
  | false => exact ⟨rfl, (recheck_message hvalid hpurge).mp hrecheck⟩

/-- No row is picked both to be deleted and for a lease. -/
theorem Txn.Inv.picks_disjoint (h : t.Inv s tid) (hvalid : s.db.Valid) {id : Uuid}
    (hdelete : id ∈ (t.scan .delete).picked) : id ∉ (t.scan .lease).picked := by
  intro hlease
  obtain ⟨hpurge, m, hm, hmid, hleased⟩ := h.leased_row hvalid hlease
  obtain ⟨m', hm', hmid', hdeleted⟩ :=
    (recheck_message hvalid hpurge).mp (h.picked .delete id hdelete).2
  obtain rfl := eq_of_key_eq hvalid.messages.ids hm hm' (hmid.trans hmid'.symm)
  cases hop : t.op with
  | dequeueMessage queueId receiptHandle =>
    simp only [Txn.wants, hop, Option.any_eq_true] at hleased hdeleted
    obtain ⟨queue, hqueue, hcandidate⟩ := hleased
    obtain ⟨queue', hqueue', hexhausted⟩ := hdeleted
    obtain rfl := Option.some.inj (hqueue.symm.trans hqueue')
    exact not_isDeadLetterCandidate hcandidate hexhausted
  | _ => simp [Txn.wants, hop] at hleased

theorem Txn.Inv.deletes_nodup (h : t.Inv s tid) : (t.scan .delete).picked.Nodup := by
  obtain ⟨limit, hlimit⟩ := h.deletes
  exact hlimit.picked_nodup

/-- A statement leases one row at most. -/
theorem Txn.Inv.leases_singleton (h : t.Inv s tid) {id : Uuid} :
    id ∈ (t.scan .lease).picked ↔ (t.scan .lease).picked.head? = some id := by
  obtain ⟨limit, hle, hscan⟩ := h.leases
  have hlength := hscan.picked_length.trans hle
  match (t.scan .lease).picked, hlength with
  | [], _ => simp
  | [other], _ => simp [eq_comm]
  | _ :: _ :: _, hlength => simp at hlength

/-- The rows that a dequeue has picked when it commits. -/
theorem Txn.Inv.dequeueSelection (h : t.Inv s tid) (hvalid : s.db.Valid) {queue : QueueRow}
    (hqueue : t.queue = some queue) :
    ∃ exhausted candidate, DequeueSelection s.db queue t.now exhausted candidate ∧
      exhausted.map (·.id) = (t.scan .delete).picked ∧
      candidate.map (·.id) = (t.scan .lease).picked.head? ∧
      ∀ m ∈ s.db.queueMessage, m.id ∈ (t.scan .lease).picked ↔ candidate = some m := by
  obtain ⟨hchecked, receiptHandle, hop⟩ := h.queue queue hqueue
  have hpurge : t.op.isPurge = false := by rw [hop]; rfl
  obtain ⟨exhausted, hexhausted, hdelete⟩ := h.rows hvalid hpurge .delete
  obtain ⟨leased, hleased, hlease⟩ := h.rows hvalid hpurge .lease
  have hcandidate : leased.head?.map (·.id) = (t.scan .lease).picked.head? := by
    rw [← hleased, List.head?_map]
  refine ⟨exhausted, leased.head?, ⟨hchecked, ?_, fun m hm => ?_, fun m hm => ?_⟩, hexhausted,
    hcandidate, fun m hm => ?_⟩
  · exact List.Nodup.of_map (·.id) (hexhausted ▸ h.deletes_nodup)
  · simpa [Txn.wants, hop, hqueue] using hdelete m hm
  · simpa [Txn.wants, hop, hqueue] using hlease m (List.mem_of_mem_head? hm)
  · rw [h.leases_singleton, ← hcandidate]
    constructor
    · intro hid
      obtain ⟨c, hc, hcid⟩ := Option.map_eq_some_iff.mp hid
      rw [hc, eq_of_key_eq hvalid.messages.ids (hlease c (List.mem_of_mem_head? hc)).1 hm hcid]
    · intro hc
      rw [hc, Option.map_some]

/-- **A commit has one of the effects**, and keeps the database valid. -/
theorem Txn.Inv.execute_effect (h : t.Inv s tid) (hvalid : s.db.Valid) (order : TriggerOrder) :
    Effect t.queue.toList s.db t.now t.op (t.execute order s.db).2 (t.execute order s.db).1 ∧
      (t.execute order s.db).1.Valid := by
  have hrows := h.rows hvalid
  have hdequeue := fun queue (hqueue : t.queue = some queue) => h.dequeueSelection hvalid hqueue
  have hnodup := h.deletes_nodup
  have hdrawn := h.drawn
  have hpicked := h.picked .delete
  obtain ⟨op, now, phase, queue, scan, enqueueOrder, counters⟩ := t
  cases op with
  | createQueue newQueue => exact createQueue_effect _ hvalid now newQueue
  | updateQueue queueId configuration => exact updateQueue_effect _ hvalid now queueId configuration
  | enqueueMessage queueId message ttl =>
    obtain ⟨db', response, hrun, heffect, hafter⟩ :=
      executeEnqueue_effect queue.toList hvalid now queueId message ttl (hdrawn rfl)
    simp only [Txn.execute, hrun]
    exact ⟨heffect, hafter⟩
  | dequeueMessage queueId receiptHandle =>
    cases queue with
    | none => exact ⟨.queueNotFound, hvalid⟩
    | some queue =>
      obtain ⟨exhausted, candidate, hsel, hexhausted, hcandidate, -⟩ := hdequeue queue rfl
      obtain ⟨-, _, hop⟩ := h.queue queue rfl
      obtain ⟨rfl, -⟩ := Operation.dequeueMessage.inj hop
      obtain ⟨db', response, hrun, heffect, hafter⟩ := executeDequeue_effect order receiptHandle
        hvalid (List.mem_singleton.mpr rfl) hsel
      rw [hexhausted, hcandidate] at hrun
      simp only [Txn.execute, hrun]
      exact ⟨heffect, hafter⟩
  | acknowledgeMessage queueId messageId receiptHandle =>
    obtain ⟨found, hfound, hack⟩ := hrows rfl .delete
    obtain ⟨db', response, hrun, -, heffect, hafter⟩ := executeAcknowledge_effect queue.toList
      hvalid now queueId messageId receiptHandle (List.Nodup.of_map (·.id) (hfound ▸ hnodup))
      fun m hm => hack m hm
    rw [hfound] at hrun
    simp only [Txn.execute, hrun]
    exact ⟨heffect, hafter⟩
  | processExpiredMessages batchSize =>
    obtain ⟨expired, hids, hexpired⟩ := hrows rfl .delete
    obtain ⟨db', summary, hrun, heffect, hafter⟩ := executeExpired_effect queue.toList hvalid now
      batchSize fun m hm => hexpired m hm
    rw [hids] at hrun
    simp only [Txn.execute, hrun]
    exact ⟨heffect, hafter⟩
  | purgeDeadLetterMessages retentionSeconds batchSize =>
    obtain ⟨purged, hids, hpurged⟩ := exists_rows_of_keys fun id hid =>
      (Txn.recheck_deadLetter hvalid rfl).mp (hpicked id hid).2
    obtain ⟨summary, hrun, heffect, hafter⟩ := executePurge_effect queue.toList hvalid now
      batchSize fun d hd => hpurged d hd
    rw [hids] at hrun heffect hafter
    simp only [Txn.execute, hrun]
    exact ⟨heffect, hafter⟩

/-- What a dequeue answers that is about to commit. -/
theorem Txn.Inv.answers (h : t.Inv s tid) (hvalid : s.db.Valid) (order : TriggerOrder)
    {queueId receiptHandle : Uuid} (hop : t.op = .dequeueMessage queueId receiptHandle) :
    Answers t.queue (t.execute order s.db).2 := by
  cases hqueue : t.queue with
  | none =>
    simp only [Txn.execute, hop, hqueue]
    exact .notFound rfl
  | some queue =>
    obtain ⟨exhausted, candidate, hsel, hexhausted, hcandidate, -⟩ :=
      h.dequeueSelection hvalid hqueue
    simp only [Txn.execute, hop, hqueue]
    rw [← hexhausted, ← hcandidate]
    exact executeDequeue_answers order receiptHandle hvalid hsel

/-! ## What a commit leaves alone -/

/-- A dequeue changes the rows it has selected and adds to the dead letters. -/
theorem executeDequeue_tables {db : Database} {queue : QueueRow} {receiptHandle : Uuid} {now : Int}
    {exhausted : List Uuid} {candidate : Option Uuid} {result : Database × DequeueMessageRow}
    (hok : executeDequeue order db queue receiptHandle now exhausted candidate = .ok result) :
    result.1.queueMessage = dequeuedMessages receiptHandle now queue.visibilityTimeoutSeconds
        exhausted candidate db.queueMessage ∧
      ∃ stored, result.1.queueDeadLetterMessage = db.queueDeadLetterMessage ++ stored := by
  rw [executeDequeue, guard_eq_ok] at hok
  obtain ⟨-, hok⟩ := hok
  rw [bind_eq_ok] at hok
  obtain ⟨archived, hinsert, hok⟩ := hok
  rw [bind_eq_ok] at hok
  obtain ⟨after, hexec, hresult⟩ := hok
  rw [pure_eq_ok] at hresult
  rw [insertDeadLetters, bind_eq_ok] at hinsert
  obtain ⟨rows, -, hinsert⟩ := hinsert
  simp only [guard_eq_ok, pure_eq_ok] at hinsert
  obtain ⟨-, -, -, rfl⟩ := hinsert
  rw [Statement.exec, guard_eq_ok] at hexec
  obtain ⟨-, hexec⟩ := hexec
  rw [bind_eq_ok] at hexec
  obtain ⟨shards, -, hexec⟩ := hexec
  rw [pure_eq_ok] at hexec
  rw [← hresult, ← hexec, dequeueStatement_apply]
  exact ⟨rfl, rows, rfl⟩

/-- A message that the transaction has not picked stays as it is. -/
theorem Txn.Inv.message_kept (h : t.Inv s tid) (hvalid : s.db.Valid) (order : TriggerOrder)
    {m : QueueMessage} (hm : m ∈ s.db.queueMessage)
    (hfree : t.op.isPurge = true ∨ ∀ selection, m.id ∉ (t.scan selection).picked) :
    m ∈ (t.execute order s.db).1.queueMessage := by
  have heffect := (h.execute_effect hvalid order).1
  generalize (t.execute order s.db).2 = response at heffect
  obtain ⟨op, now, phase, queue, scan, enqueueOrder, counters⟩ := t
  obtain ⟨shards, hdelete, -⟩ := deleteStatement_exec hvalid (scan .delete).picked
  cases op with
  | createQueue newQueue =>
    simp only at heffect
    generalize (Txn.execute order _ s.db).1 = db' at heffect ⊢
    cases heffect <;> exact hm
  | updateQueue queueId configuration =>
    simp only at heffect
    generalize (Txn.execute order _ s.db).1 = db' at heffect ⊢
    cases heffect <;> exact hm
  | enqueueMessage queueId message ttl =>
    simp only at heffect
    generalize (Txn.execute order _ s.db).1 = db' at heffect ⊢
    cases heffect with
    | failed => exact hm
    | enqueued => exact List.mem_append_left _ hm
  | dequeueMessage queueId receiptHandle =>
    cases queue with
    | none => exact hm
    | some queue =>
      have hfree := hfree.resolve_left (by simp [Operation.isPurge])
      simp only [Txn.execute]
      cases hexec : executeDequeue order s.db queue receiptHandle now (scan .delete).picked
          (scan .lease).picked.head? with
      | error e => exact hm
      | ok result =>
        rw [settle, (executeDequeue_tables hexec).1]
        refine mem_dequeuedMessages.mpr ⟨m, hm, hfree .delete, ?_⟩
        rw [if_neg]
        exact fun hhead => hfree .lease (List.mem_of_mem_head? hhead)
  | acknowledgeMessage queueId messageId receiptHandle =>
    have hfree := hfree.resolve_left (by simp [Operation.isPurge])
    simp only [Txn.execute, executeAcknowledge, hdelete]
    exact List.mem_filter.mpr ⟨hm, by simpa using hfree .delete⟩
  | processExpiredMessages batchSize =>
    have hfree := hfree.resolve_left (by simp [Operation.isPurge])
    simp only [Txn.execute, executeExpired, hdelete]
    exact List.mem_filter.mpr ⟨hm, by simpa using hfree .delete⟩
  | purgeDeadLetterMessages retentionSeconds batchSize => exact hm

/-- A dead letter that the transaction has not picked stays as it is. -/
theorem Txn.Inv.deadLetter_kept (h : t.Inv s tid) (hvalid : s.db.Valid) (order : TriggerOrder)
    {d : QueueDeadLetterMessage} (hd : d ∈ s.db.queueDeadLetterMessage)
    (hfree : t.op.isPurge = true → d.id ∉ (t.scan .delete).picked) :
    d ∈ (t.execute order s.db).1.queueDeadLetterMessage := by
  by_contra hgone
  obtain ⟨retentionSeconds, batchSize, -, hop, -⟩ :=
    (h.execute_effect hvalid order).1.deadLetter_exit hvalid hd hgone
  refine hgone ?_
  simp only [Txn.execute, hop, executePurge]
  exact List.mem_filter.mpr ⟨hd, by simpa using hfree (by rw [hop]; rfl)⟩

section Others

variable (h : s.Inv) (order : TriggerOrder) {tid' : Nat} {t' : Txn} (ht : s.txns tid = some t)
  (hactive : t.phase.active) (ht' : s.txns tid' = some t') (hactive' : t'.phase.active)
  (hne : tid' ≠ tid) {selection : Selection}

include h ht hactive ht' hactive' hne

/-- Two transactions never pick the same row. -/
theorem System.Inv.picked_disjoint {id : Uuid} (hpicked : id ∈ (t'.scan selection).picked)
    {other : Selection} (hpicked' : id ∈ (t.scan other).picked) : t.lock id ≠ t'.lock id := by
  intro heq
  have hlock := ((h.txn tid' t' ht' hactive').picked selection id hpicked).1
  rw [← heq, ((h.txn tid t ht hactive).picked other id hpicked').1] at hlock
  exact hne (Option.some.inj hlock).symm

/-- A message that another transaction has picked stays as it is. -/
theorem System.Inv.picked_message_kept (hpurge : t'.op.isPurge = false) {m : QueueMessage}
    (hm : m ∈ s.db.queueMessage) (hpicked : m.id ∈ (t'.scan selection).picked) :
    m ∈ (t.execute order s.db).1.queueMessage := by
  refine (h.txn tid t ht hactive).message_kept h.valid order hm ?_
  cases hp : t.op.isPurge with
  | true => exact Or.inl rfl
  | false =>
    refine Or.inr fun other hmem => ?_
    exact h.picked_disjoint ht hactive ht' hactive' hne hpicked hmem
      (by simp [Txn.lock, hp, hpurge])

/-- What another transaction has picked is still wanted after a commit. -/
theorem System.Inv.recheck_kept {id : Uuid} (hpicked : id ∈ (t'.scan selection).picked) :
    t'.recheck (t.execute order s.db).1 selection id = some true := by
  have hinv := h.txn tid t ht hactive
  have hrecheck := ((h.txn tid' t' ht' hactive').picked selection id hpicked).2
  have hafter := (hinv.execute_effect h.valid order).2
  cases hpurge : t'.op.isPurge with
  | true =>
    obtain ⟨d, hd, rfl, hwants⟩ := (Txn.recheck_deadLetter h.valid hpurge).mp hrecheck
    refine (Txn.recheck_deadLetter hafter hpurge).mpr
      ⟨d, hinv.deadLetter_kept h.valid order hd fun hp hmem => ?_, rfl, hwants⟩
    exact h.picked_disjoint ht hactive ht' hactive' hne hpicked hmem
      (by simp [Txn.lock, hp, hpurge])
  | false =>
    obtain ⟨m, hm, rfl, hwants⟩ := (Txn.recheck_message h.valid hpurge).mp hrecheck
    exact (Txn.recheck_message hafter hpurge).mpr ⟨m, h.picked_message_kept order ht hactive ht'
      hactive' hne hpurge hm hpicked, rfl, hwants⟩

end Others

/-! ## Every step preserves the invariant -/

/-- The part of the invariant that other transactions cannot break. -/
theorem Txn.Inv.frame (h : t.Inv s tid) (hclock : s.clock ≤ s'.clock)
    (hids : ∀ id ∈ s.messageIds, id ∈ s'.messageIds)
    (hhandles : ∀ receiptHandle ∈ s.receiptHandles, receiptHandle ∈ s'.receiptHandles)
    (hseq : s.db.enqueueOrderSequence ≤ s'.db.enqueueOrderSequence)
    (hmessageId : ∀ id ∈ t.op.enqueuedId, (∀ m ∈ s'.db.queueMessage, m.id ≠ id) ∧
      ∀ d ∈ s'.db.queueDeadLetterMessage, d.id ≠ id)
    (hhandle : ∀ receiptHandle ∈ t.op.drawnHandle,
      ∀ m ∈ s'.db.queueMessage, m.receiptHandle ≠ some receiptHandle)
    (hpicked : ∀ selection, ∀ id ∈ (t.scan selection).picked,
      s'.locks (t.lock id) = some tid ∧ t.recheck s'.db selection id = some true) :
    t.Inv s' tid where
  now_le := h.now_le.trans hclock
  messageId id hid := ⟨hids id (h.messageId id hid).1, hmessageId id hid⟩
  handle receiptHandle hr := ⟨hhandles receiptHandle (h.handle receiptHandle hr).1,
    hhandle receiptHandle hr⟩
  drawn hop := lt_of_lt_of_le (h.drawn hop) hseq
  queue := h.queue
  deletes := h.deletes
  leases := h.leases
  picked := hpicked

theorem System.setTxn_self (s : System) (tid : Nat) (t : Txn) :
    (s.setTxn tid t).txns tid = some t := by
  simp [System.setTxn]

theorem System.setTxn_other (s : System) {tid tid' : Nat} (t : Txn) (hne : tid' ≠ tid) :
    (s.setTxn tid t).txns tid' = s.txns tid' := by
  simp [System.setTxn, hne]

/-- A transaction after one has been set: that one, or one from before. -/
theorem System.setTxn_eq_some {s : System} {tid tid' : Nat} {t t' : Txn} :
    (s.setTxn tid t).txns tid' = some t' ↔
      (tid' = tid ∧ t' = t) ∨ (tid' ≠ tid ∧ s.txns tid' = some t') := by
  by_cases h : tid' = tid
  · simp [System.setTxn, h, eq_comm]
  · simp [System.setTxn, h]

/-- A step that no committed row shows: one transaction goes on, and may lock something. -/
theorem System.Inv.advance (h : s.Inv) (ht : s.txns tid = some t) (hactive : t.phase.active)
    (t' : Txn) (hop : t'.op = t.op) (hactive' : t'.phase.active) {seq : Int}
    (hseq : s.db.enqueueOrderSequence ≤ seq) {locks : LockTable Lock Nat}
    (hlocks : ∀ k other, other ≠ tid → (locks k = some other ↔ s.locks k = some other))
    (ht' : t'.Inv { s.setTxn tid t' with
      db := { s.db with enqueueOrderSequence := seq }, locks := locks } tid) :
    System.Inv { s.setTxn tid t' with
      db := { s.db with enqueueOrderSequence := seq }, locks := locks } where
  valid := h.valid.draw hseq
  disjoint := h.disjoint
  sequence := lt_of_lt_of_le h.sequence hseq
  enqueuedAt := h.enqueuedAt
  messageIds := h.messageIds
  deadLetterIds := h.deadLetterIds
  receiptHandles := h.receiptHandles
  txn other u hu huactive := by
    by_cases hother : other = tid
    · subst hother
      obtain rfl := Option.some.inj ((s.setTxn_self other t').symm.trans hu)
      exact ht'
    · have hu : s.txns other = some u := (s.setTxn_other t' hother).symm.trans hu
      have hinv := h.txn other u hu huactive
      refine hinv.frame le_rfl (fun _ h => h) (fun _ h => h) hseq
        (fun id hid => (hinv.messageId id hid).2) (fun r hr => (hinv.handle r hr).2)
        fun selection id hid => ?_
      exact ⟨(hlocks _ other hother).mpr (hinv.picked selection id hid).1,
        (hinv.picked selection id hid).2⟩
  holder k other hk := by
    by_cases hother : other = tid
    · subst hother
      exact ⟨t', s.setTxn_self other t', hactive'⟩
    · obtain ⟨u, hu, huactive⟩ := h.holder k other ((hlocks k other hother).mp hk)
      exact ⟨u, (s.setTxn_other t' hother).trans hu, huactive⟩
  distinct one two u v hu hv huactive hvactive hsame := by
    -- the operations are those from before the step
    have hback : ∀ other w, (s.setTxn tid t').txns other = some w → w.phase.active →
        ∃ w', s.txns other = some w' ∧ w'.phase.active ∧ w'.op = w.op := by
      intro other w hw hwactive
      by_cases hother : other = tid
      · subst hother
        obtain rfl := Option.some.inj ((s.setTxn_self other t').symm.trans hw)
        exact ⟨t, ht, hactive, hop.symm⟩
      · exact ⟨w, (s.setTxn_other t' hother).symm.trans hw, hwactive, rfl⟩
    obtain ⟨u', hu', hu'active, huop⟩ := hback one u hu huactive
    obtain ⟨v', hv', hv'active, hvop⟩ := hback two v hv hvactive
    rw [← huop, ← hvop] at hsame
    exact h.distinct one two u' v' hu' hv' hu'active hv'active hsame

/-- What an advancing transaction keeps of its own part, if it keeps what it has picked. -/
theorem Txn.Inv.advance (h : t.Inv s tid) (t' : Txn) (hop : t'.op = t.op) (hnow : t'.now = t.now)
    (hqueue : t'.queue = t.queue) (horder : t'.enqueueOrder = t.enqueueOrder)
    {locks : LockTable Lock Nat} (hlocks : ∀ k, s.locks k = some tid → locks k = some tid)
    (hdeletes : ∃ limit, (t'.scan .delete).WellFormed limit)
    (hleases : ∃ limit ≤ 1, (t'.scan .lease).WellFormed limit)
    (hpicked : ∀ selection, ∀ id ∈ (t'.scan selection).picked,
      id ∈ (t.scan selection).picked ∨
        (locks (t.lock id) = some tid ∧ t.recheck s.db selection id = some true)) :
    t'.Inv { s.setTxn tid t' with locks := locks } tid where
  now_le := hnow ▸ h.now_le
  messageId id hid := h.messageId id (hop ▸ hid)
  handle r hr := h.handle r (hop ▸ hr)
  drawn hsome := horder ▸ h.drawn (hop ▸ hsome)
  queue q hq := by
    rw [hop]
    exact h.queue q (hqueue ▸ hq)
  deletes := hdeletes
  leases := hleases
  picked selection id hid := by
    have hlock : t'.lock id = t.lock id := by simp only [Txn.lock, hop]
    have hrecheck : t'.recheck s.db selection id = t.recheck s.db selection id := by
      obtain ⟨op, now, phase, queue, scan, enqueueOrder, counters⟩ := t
      obtain ⟨op', now', phase', queue', scan', enqueueOrder', counters'⟩ := t'
      simp only at hop hnow hqueue
      subst hop hnow hqueue
      rfl
    show locks (t'.lock id) = some tid ∧ t'.recheck s.db selection id = some true
    rw [hlock, hrecheck]
    rcases hpicked selection id hid with hold | hnew
    · exact ⟨hlocks _ (h.picked selection id hold).1, (h.picked selection id hold).2⟩
    · exact hnew

/-- The active transactions, once one has ended, are the others. -/
theorem System.setTxn_ended (s : System) {u : Txn} (hended : u.phase.active = false) {other : Nat}
    {v : Txn} (hv : (s.setTxn tid u).txns other = some v) (hactive : v.phase.active) :
    s.txns other = some v ∧ other ≠ tid := by
  by_cases hother : other = tid
  · subst hother
    obtain rfl := Option.some.inj ((s.setTxn_self other u).symm.trans hv)
    simp [hended] at hactive
  · exact ⟨(s.setTxn_other u hother).symm.trans hv, hother⟩

/-- Releasing the locks of a transaction that ends, and nothing else. -/
theorem System.Inv.finish (h : s.Inv) (t : Txn) {phase : Phase} (hphase : phase.active = false)
    {db : Database} {log : List Event}
    (hvalid : db.Valid)
    (hdisjoint : ∀ m ∈ db.queueMessage, ∀ d ∈ db.queueDeadLetterMessage, d.id ≠ m.id)
    (hseq : s.db.enqueueOrderSequence ≤ db.enqueueOrderSequence)
    (hmessages : ∀ m ∈ db.queueMessage, m.enqueuedAt ≤ s.clock ∧ m.id ∈ s.messageIds ∧
      ∀ receiptHandle ∈ m.receiptHandle, receiptHandle ∈ s.receiptHandles)
    (hdeadLetters : ∀ d ∈ db.queueDeadLetterMessage, d.id ∈ s.messageIds)
    (hothers : ∀ other u, s.txns other = some u → u.phase.active → other ≠ tid →
      (∀ id ∈ u.op.enqueuedId, (∀ m ∈ db.queueMessage, m.id ≠ id) ∧
        ∀ d ∈ db.queueDeadLetterMessage, d.id ≠ id) ∧
      (∀ r ∈ u.op.drawnHandle, ∀ m ∈ db.queueMessage, m.receiptHandle ≠ some r) ∧
      ∀ selection, ∀ id ∈ (u.scan selection).picked, u.recheck db selection id = some true) :
    System.Inv { s.setTxn tid { t with phase := phase } with
      db := db, locks := s.locks.release tid, log := log } := by
  have hback : ∀ other u, (s.setTxn tid { t with phase := phase }).txns other = some u →
      u.phase.active → s.txns other = some u ∧ other ≠ tid :=
    fun other u hu huactive => s.setTxn_ended hphase hu huactive
  exact {
    valid := hvalid
    disjoint := hdisjoint
    sequence := lt_of_lt_of_le h.sequence hseq
    enqueuedAt := fun m hm => (hmessages m hm).1
    messageIds := fun m hm => (hmessages m hm).2.1
    deadLetterIds := hdeadLetters
    receiptHandles := fun m hm => (hmessages m hm).2.2
    txn := fun other u hu huactive => by
      obtain ⟨hu, hother⟩ := hback other u hu huactive
      have hinv := h.txn other u hu huactive
      obtain ⟨hid, hhandle, hrecheck⟩ := hothers other u hu huactive hother
      refine hinv.frame le_rfl (fun _ h => h) (fun _ h => h) hseq hid hhandle
        fun selection id hmem => ⟨?_, hrecheck selection id hmem⟩
      exact LockTable.release_eq_some.mpr ⟨(hinv.picked selection id hmem).1, hother⟩
    holder := fun k other hk => by
      obtain ⟨hk, hother⟩ := LockTable.release_eq_some.mp hk
      obtain ⟨u, hu, huactive⟩ := h.holder k other hk
      exact ⟨u, (s.setTxn_other _ hother).trans hu, huactive⟩
    distinct := fun one two u v hu hv huactive hvactive hsame =>
      h.distinct one two u v (hback one u hu huactive).1 (hback two v hv hvactive).1 huactive
        hvactive hsame }

theorem System.Inv.commit (h : s.Inv) (order : TriggerOrder) (ht : s.txns tid = some t)
    (hactive : t.phase.active) : (s.commit order tid t).Inv := by
  have hinv := h.txn tid t ht hactive
  obtain ⟨heffect, hvalid⟩ := hinv.execute_effect h.valid order
  refine h.finish t rfl hvalid
    (heffect.disjoint h.valid h.disjoint fun id hid => (hinv.messageId id hid).2.2)
    heffect.sequence_le (fun m' hm' => ⟨?_, ?_, fun r hr => ?_⟩) (fun d hd => ?_)
    fun other u hu huactive hother => ⟨fun id hid => ⟨fun m' hm' heq => ?_, fun d hd heq => ?_⟩,
      fun r hr m' hm' heq => ?_, fun selection id hpicked =>
        h.recheck_kept order ht hactive hu huactive hother hpicked⟩
  · rcases heffect.enqueuedAt h.valid hm' with hnow | ⟨m, hm, heq⟩
    · exact hnow ▸ hinv.now_le
    · exact heq ▸ h.enqueuedAt m hm
  · rcases heffect.message_id h.valid hm' with hid | ⟨m, hm, heq⟩
    · exact (hinv.messageId _ hid).1
    · exact heq ▸ h.messageIds m hm
  · rcases heffect.receiptHandle h.valid hm' hr with hdrawn | hm
    · exact (hinv.handle r hdrawn).1
    · exact h.receiptHandles m' hm r hr
  · rcases heffect.deadLetter_id hd with hd | ⟨m, hm, heq⟩
    · exact h.deadLetterIds d hd
    · exact heq ▸ h.messageIds m hm
  -- what another transaction has drawn is not what this one has stored
  · have huinv := h.txn other u hu huactive
    rcases heffect.message_id h.valid hm' with hnew | ⟨m, hm, hmid⟩
    · exact hother (h.distinct other tid u t hu ht huactive hactive
        (Or.inl ⟨id, hid, heq ▸ hnew⟩))
    · exact (huinv.messageId id hid).2.1 m hm (hmid.trans heq)
  · have huinv := h.txn other u hu huactive
    rcases heffect.deadLetter_id hd with hd | ⟨m, hm, hmid⟩
    · exact (huinv.messageId id hid).2.2 d hd heq
    · exact (huinv.messageId id hid).2.1 m hm (hmid.trans heq)
  · have huinv := h.txn other u hu huactive
    rcases heffect.receiptHandle h.valid hm' heq with hdrawn | hm
    · exact hother (h.distinct other tid u t hu ht huactive hactive (Or.inr ⟨r, hr, hdrawn⟩))
    · exact (huinv.handle r hr).2 m' hm heq

/-- The snapshot selects every row once. -/
theorem Operation.select_wellFormed {db : Database} (h : db.Valid) (now : Int) (op : Operation) :
    (∃ limit, (op.select db now .delete).WellFormed limit) ∧
      ∃ limit ≤ 1, (op.select db now .lease).WellFormed limit := by
  have hmessages {rows : List QueueMessage} (hsub : rows.Sublist db.queueMessage) {κ : Type}
      [LinearOrder κ] (key : QueueMessage → κ) : ((orderBy key rows).map (·.id)).Nodup :=
    ((orderBy_perm key rows).map _).nodup_iff.mpr ((hsub.map _).nodup h.messages.ids)
  have hidle : ∃ limit ≤ 1, (Scan.idle : Scan Uuid).WellFormed limit :=
    ⟨0, Nat.zero_le 1, Scan.idle_wellFormed⟩
  have hidle' : ∃ limit, (Scan.idle : Scan Uuid).WellFormed limit := ⟨0, Scan.idle_wellFormed⟩
  cases op with
  | dequeueMessage queueId receiptHandle =>
    cases hqueue : targetQueue db queueId with
    | none =>
      simp only [Operation.select, hqueue]
      exact ⟨hidle', hidle⟩
    | some queue =>
      simp only [Operation.select, hqueue]
      exact ⟨⟨_, Scan.start_wellFormed (hmessages List.filter_sublist _) _⟩,
        ⟨1, le_rfl, Scan.start_wellFormed (hmessages List.filter_sublist _) _⟩⟩
  | acknowledgeMessage queueId messageId receiptHandle =>
    exact ⟨⟨_, Scan.start_wellFormed ((List.filter_sublist.map _).nodup h.messages.ids) _⟩, hidle⟩
  | processExpiredMessages batchSize =>
    exact ⟨⟨_, Scan.start_wellFormed (hmessages List.filter_sublist _) _⟩, hidle⟩
  | purgeDeadLetterMessages retentionSeconds batchSize =>
    refine ⟨⟨_, Scan.start_wellFormed ?_ _⟩, hidle⟩
    exact ((orderBy_perm _ _).map _).nodup_iff.mpr
      ((List.filter_sublist.map _).nodup h.deadLetterIds)
  | createQueue | updateQueue | enqueueMessage => exact ⟨hidle', hidle⟩

theorem Operation.select_picked (db : Database) (now : Int) (op : Operation)
    (selection : Selection) : (op.select db now selection).picked = [] := by
  cases selection <;> cases op <;> simp only [Operation.select] <;> try rfl
  all_goals split <;> rfl

theorem Txn.setScan_self (t : Txn) (selection : Selection) (scan : Scan Uuid) :
    (t.setScan selection scan).scan selection = scan := by
  simp [Txn.setScan]

theorem Txn.setScan_other (t : Txn) {selection other : Selection} (scan : Scan Uuid)
    (hne : other ≠ selection) : (t.setScan selection scan).scan other = t.scan other := by
  simp [Txn.setScan, hne]

/-- A visit keeps the scans well formed. -/
theorem Txn.Inv.setScan (h : t.Inv s tid) (selection : Selection) (scan : Scan Uuid)
    (hscan : ∀ limit, (t.scan selection).WellFormed limit → scan.WellFormed limit) :
    (∃ limit, ((t.setScan selection scan).scan .delete).WellFormed limit) ∧
      ∃ limit ≤ 1, ((t.setScan selection scan).scan .lease).WellFormed limit := by
  obtain ⟨limit, hlimit⟩ := h.deletes
  obtain ⟨limit', hle, hlimit'⟩ := h.leases
  cases selection with
  | delete =>
    rw [t.setScan_self, t.setScan_other scan (by simp)]
    exact ⟨⟨limit, hscan limit hlimit⟩, limit', hle, hlimit'⟩
  | lease =>
    rw [t.setScan_self, t.setScan_other scan (by simp)]
    exact ⟨⟨limit, hlimit⟩, limit', hle, hscan limit' hlimit'⟩

theorem System.Inv.begin (h : s.Inv) {op : Operation} (hidle : s.txns tid = none)
    (hid : ∀ id ∈ op.enqueuedId, id ∉ s.messageIds)
    (hhandle : ∀ receiptHandle ∈ op.drawnHandle, receiptHandle ∉ s.receiptHandles) :
    (s.begin tid op).Inv := by
  have hids : ∀ id ∈ s.messageIds, id ∈ (s.begin tid op).messageIds :=
    fun id hid => List.mem_append_right _ hid
  have hhandles : ∀ r ∈ s.receiptHandles, r ∈ (s.begin tid op).receiptHandles :=
    fun r hr => List.mem_append_right _ hr
  -- the new transaction, or one from before the step
  have hcases : ∀ other u, (s.begin tid op).txns other = some u →
      (other = tid ∧ u = .begin op s.clock) ∨ s.txns other = some u := by
    intro other u hu
    by_cases hother : other = tid
    · subst hother
      exact Or.inl ⟨rfl, (Option.some.inj ((s.setTxn_self other _).symm.trans hu)).symm⟩
    · exact Or.inr ((s.setTxn_other _ hother).symm.trans hu)
  have hnew : (Txn.begin op s.clock).Inv (s.begin tid op) tid := {
    now_le := le_rfl
    messageId := fun id hmem => ⟨List.mem_append_left _ (Option.mem_toList.mpr hmem),
      fun m hm heq => hid id hmem (heq ▸ h.messageIds m hm),
      fun d hd heq => hid id hmem (heq ▸ h.deadLetterIds d hd)⟩
    handle := fun r hr => ⟨List.mem_append_left _ (Option.mem_toList.mpr hr),
      fun m hm heq => hhandle r hr (h.receiptHandles m hm r heq)⟩
    drawn := fun _ => h.sequence
    queue := fun q hq => by simp [Txn.begin] at hq
    deletes := ⟨0, Scan.idle_wellFormed⟩
    leases := ⟨0, Nat.zero_le 1, Scan.idle_wellFormed⟩
    picked := fun selection id hpicked => by simp [Txn.begin] at hpicked }
  -- what the new transaction has drawn was drawn by no other
  have hfresh : ∀ other u, s.txns other = some u → u.phase.active →
      ¬((∃ id, op.enqueuedId = some id ∧ u.op.enqueuedId = some id) ∨
        ∃ r, op.drawnHandle = some r ∧ u.op.drawnHandle = some r) := by
    rintro other u hu huactive (⟨id, hop, huop⟩ | ⟨r, hop, huop⟩)
    · exact hid id hop ((h.txn other u hu huactive).messageId id huop).1
    · exact hhandle r hop ((h.txn other u hu huactive).handle r huop).1
  exact { h with
    messageIds := fun m hm => hids _ (h.messageIds m hm)
    deadLetterIds := fun d hd => hids _ (h.deadLetterIds d hd)
    receiptHandles := fun m hm r hr => hhandles r (h.receiptHandles m hm r hr)
    txn := fun other u hu huactive => by
      rcases hcases other u hu with ⟨rfl, rfl⟩ | hu
      · exact hnew
      · have hinv := h.txn other u hu huactive
        exact hinv.frame le_rfl hids hhandles le_rfl (fun id hid => (hinv.messageId id hid).2)
          (fun r hr => (hinv.handle r hr).2) hinv.picked
    holder := fun k other hk => by
      obtain ⟨u, hu, huactive⟩ := h.holder k other hk
      refine ⟨u, (s.setTxn_other _ ?_).trans hu, huactive⟩
      rintro rfl
      rw [hidle] at hu
      simp at hu
    distinct := fun one two u v hu hv huactive hvactive hsame => by
      rcases hcases one u hu with ⟨rfl, rfl⟩ | hu <;> rcases hcases two v hv with ⟨rfl, rfl⟩ | hv
      · rfl
      · exact absurd hsame (hfresh two v hv hvactive)
      · exact absurd (hsame.imp (fun ⟨id, h, h'⟩ => ⟨id, h', h⟩) fun ⟨r, h, h'⟩ => ⟨r, h', h⟩)
          (hfresh one u ‹_› huactive)
      · exact h.distinct one two u v hu hv huactive hvactive hsame }

theorem System.Inv.takeSnapshot (h : s.Inv) (ht : s.txns tid = some t)
    (hphase : t.phase = .started) : (s.takeSnapshot tid t).Inv := by
  have hactive : t.phase.active := by rw [hphase]; rfl
  have hinv := h.txn tid t ht hactive
  have hseq : s.db.enqueueOrderSequence ≤
      s.db.enqueueOrderSequence + if t.op.enqueuedId.isSome then 1 else 0 := by
    split <;> omega
  obtain ⟨hdeletes, hleases⟩ := t.op.select_wellFormed h.valid t.now
  refine h.advance ht hactive { t with
      phase := .selecting
      queue := t.op.target s.db
      scan := t.op.select s.db t.now
      enqueueOrder := s.db.enqueueOrderSequence } rfl rfl hseq (fun _ _ _ => Iff.rfl) {
    now_le := hinv.now_le
    messageId := hinv.messageId
    handle := hinv.handle
    drawn := fun hsome => ?_
    queue := fun q hq => ?_
    deletes := hdeletes
    leases := hleases
    picked := fun selection id hid => ?_ }
  · simp only at hsome ⊢
    rw [if_pos hsome]
    omega
  · simp only at hq ⊢
    generalize t.op = op at hq ⊢
    cases op with
    | dequeueMessage queueId receiptHandle =>
      obtain ⟨hqueue, rfl⟩ := h.valid.find_queue.mp hq
      exact ⟨h.valid.queueChecked q hqueue, receiptHandle, rfl⟩
    | _ => simp [Operation.target] at hq
  · rw [Operation.select_picked] at hid
    simp at hid

/-- One transaction goes on with its selection. -/
theorem System.Inv.proceed (h : s.Inv) (ht : s.txns tid = some t) (hactive : t.phase.active)
    (t' : Txn) (locks : LockTable Lock Nat) (hop : t'.op = t.op) (hnow : t'.now = t.now)
    (hqueue : t'.queue = t.queue) (horder : t'.enqueueOrder = t.enqueueOrder)
    (hactive' : t'.phase.active)
    (hothers : ∀ k other, other ≠ tid → (locks k = some other ↔ s.locks k = some other))
    (hown : ∀ k, s.locks k = some tid → locks k = some tid)
    (hdeletes : ∃ limit, (t'.scan .delete).WellFormed limit)
    (hleases : ∃ limit ≤ 1, (t'.scan .lease).WellFormed limit)
    (hpicked : ∀ selection, ∀ id ∈ (t'.scan selection).picked,
      id ∈ (t.scan selection).picked ∨
        (locks (t.lock id) = some tid ∧ t.recheck s.db selection id = some true)) :
    System.Inv { s.setTxn tid t' with locks := locks } :=
  h.advance ht hactive t' hop hactive' le_rfl hothers
    ((h.txn tid t ht hactive).advance t' hop hnow hqueue horder hown hdeletes hleases hpicked)

/-- One transaction visits a row. -/
theorem System.Inv.visit (h : s.Inv) (ht : s.txns tid = some t) (hactive : t.phase.active)
    (selection : Selection) (scan : Scan Uuid) (locks : LockTable Lock Nat)
    (hothers : ∀ k other, other ≠ tid → (locks k = some other ↔ s.locks k = some other))
    (hown : ∀ k, s.locks k = some tid → locks k = some tid)
    (hscan : ∀ limit, (t.scan selection).WellFormed limit → scan.WellFormed limit)
    (hpicked : ∀ id ∈ scan.picked, id ∈ (t.scan selection).picked ∨
      (locks (t.lock id) = some tid ∧ t.recheck s.db selection id = some true)) :
    System.Inv { s.setTxn tid (t.setScan selection scan) with locks := locks } := by
  obtain ⟨hdeletes, hleases⟩ := (h.txn tid t ht hactive).setScan selection scan hscan
  refine h.proceed ht hactive (t.setScan selection scan) locks rfl rfl rfl rfl hactive hothers hown
    hdeletes hleases fun other id hid => ?_
  by_cases hother : other = selection
  · subst hother
    rw [t.setScan_self] at hid
    exact hpicked id hid
  · rw [t.setScan_other _ hother] at hid
    exact Or.inl hid

/-- **Every step preserves the invariant.** -/
theorem System.Inv.step {a : Action} (h : s.Inv) (hstep : Step order s a s') : s'.Inv := by
  cases hstep with
  | @tick now htime =>
    exact { h with
      enqueuedAt := fun m hm => (h.enqueuedAt m hm).trans htime
      txn := fun other u hu huactive => by
        have hinv := h.txn other u hu huactive
        exact hinv.frame htime (fun _ h => h) (fun _ h => h) le_rfl
          (fun id hid => (hinv.messageId id hid).2) (fun r hr => (hinv.handle r hr).2) hinv.picked }
  | start hidle hid hhandle => exact h.begin hidle hid hhandle
  | snapshot ht hphase => exact h.takeSnapshot ht hphase
  | @pass tid t selection id ht hphase hnext hreason =>
    exact h.visit ht (by rw [hphase]; rfl) selection (t.scan selection).pass s.locks
      (fun _ _ _ => Iff.rfl) (fun _ h => h) (fun _ h => h.pass) fun _ => Or.inl
  | @reject tid t selection id ht hphase hnext hfree hrecheck =>
    exact h.visit ht (by rw [hphase]; rfl) selection (t.scan selection).pass _
      (fun _ _ hne => LockTable.acquire_other hfree hne) (fun _ h => LockTable.acquire_own h)
      (fun _ h => h.pass) fun _ => Or.inl
  | @pick tid t selection id ht hphase hnext hfree hrecheck =>
    refine h.visit ht (by rw [hphase]; rfl) selection ((t.scan selection).pick id) _
      (fun _ _ hne => LockTable.acquire_other hfree hne) (fun _ h => LockTable.acquire_own h)
      (fun _ h => h.pick hnext) fun id' hid' => ?_
    rcases List.mem_append.mp hid' with hid' | hid'
    · exact Or.inl hid'
    · rw [List.mem_singleton.mp hid']
      exact Or.inr ⟨LockTable.acquire_eq_some.mpr (Or.inl ⟨rfl, rfl⟩), hrecheck⟩
  | @count tid t ht hphase hselected =>
    have hactive : t.phase.active := by rw [hphase]; rfl
    have hinv := h.txn tid t ht hactive
    exact h.proceed ht hactive { t with phase := .counting, counters := t.adjusted order s.db }
      s.locks rfl rfl rfl rfl rfl (fun _ _ _ => Iff.rfl) (fun _ h => h) hinv.deletes hinv.leases
      fun _ _ => Or.inl
  | @lockCounter tid t key rest ht hphase hnext hfree =>
    have hactive : t.phase.active := by rw [hphase]; rfl
    have hinv := h.txn tid t ht hactive
    exact h.proceed ht hactive { t with counters := rest } _ rfl rfl rfl rfl hactive
      (fun _ _ hne => LockTable.acquire_other hfree hne) (fun _ h => LockTable.acquire_own h)
      hinv.deletes hinv.leases fun _ _ => Or.inl
  | commit ht hphase hcounters => exact h.commit order ht (by rw [hphase]; rfl)
  | @abort tid t ht hactive =>
    refine h.finish t rfl h.valid h.disjoint le_rfl
      (fun m hm => ⟨h.enqueuedAt m hm, h.messageIds m hm, h.receiptHandles m hm⟩) h.deadLetterIds
      fun other u hu huactive hother => ?_
    have hinv := h.txn other u hu huactive
    exact ⟨fun id hid => (hinv.messageId id hid).2, fun r hr => (hinv.handle r hr).2,
      fun selection id hid => (hinv.picked selection id hid).2⟩

/-- **The invariant holds in every state that transactions reach.** -/
theorem Reachable.inv (h : Reachable order s) : s.Inv :=
  h.invariant System.initial_inv fun _ _ _ _ hinv _ hstep => hinv.step (step_cases hstep)

/-! ## What a step shows -/

/-- A step commits a transaction, or leaves the tables and the log alone. -/
theorem Step.committed {a : Action} (hstep : Step order s a s') :
    (s'.log = s.log ∧ s'.db.queue = s.db.queue ∧ s'.db.queueMessage = s.db.queueMessage ∧
        s'.db.queueDeadLetterMessage = s.db.queueDeadLetterMessage ∧
        s'.db.queuePriorityStateShard = s.db.queuePriorityStateShard) ∨
      ∃ tid t, a = .commit tid ∧ s.txns tid = some t ∧ t.phase.active ∧
        s' = s.commit order tid t := by
  cases hstep with
  | @commit tid t ht hphase hcounters =>
    exact Or.inr ⟨tid, t, rfl, ht, by rw [hphase]; rfl, rfl⟩
  | _ => exact Or.inl ⟨rfl, rfl, rfl, rfl, rfl⟩

/-- A transaction after a step: it has just started, or it goes on. -/
theorem Step.txn_origin {a : Action} (hstep : Step order s a s') {tid : Nat} {t' : Txn}
    (ht' : s'.txns tid = some t') (hactive' : t'.phase.active) :
    (s.txns tid = none ∧ (∀ id ∈ t'.op.enqueuedId, id ∉ s.messageIds) ∧
        ∀ r ∈ t'.op.drawnHandle, r ∉ s.receiptHandles) ∨
      ∃ t, s.txns tid = some t ∧ t.phase.active ∧ t.op = t'.op ∧ t.now = t'.now := by
  -- the transaction that the step has set, or another one
  have hset : ∀ {actor : Nat} {t u : Txn}, s'.txns = (s.setTxn actor u).txns →
      s.txns actor = some t → t.phase.active → u.op = t.op → u.now = t.now →
      ∃ t, s.txns tid = some t ∧ t.phase.active ∧ t.op = t'.op ∧ t.now = t'.now := by
    intro actor t u htxns ht hactive hop hnow
    rw [htxns] at ht'
    by_cases hactor : tid = actor
    · subst hactor
      obtain rfl := Option.some.inj ((s.setTxn_self tid u).symm.trans ht')
      exact ⟨t, ht, hactive, hop.symm, hnow.symm⟩
    · exact ⟨t', (s.setTxn_other u hactor).symm.trans ht', hactive', rfl, rfl⟩
  cases hstep with
  | tick => exact Or.inr ⟨t', ht', hactive', rfl, rfl⟩
  | @start actor op hidle hid hhandle =>
    by_cases hactor : tid = actor
    · subst hactor
      obtain rfl := Option.some.inj ((s.setTxn_self tid _).symm.trans ht')
      exact Or.inl ⟨hidle, hid, hhandle⟩
    · exact Or.inr ⟨t', (s.setTxn_other _ hactor).symm.trans ht', hactive', rfl, rfl⟩
  | snapshot ht hphase | pass ht hphase | reject ht hphase | pick ht hphase | count ht hphase
  | lockCounter ht hphase | commit ht hphase =>
    exact Or.inr (hset rfl ht (by rw [hphase]; rfl) rfl rfl)
  | abort ht hactive => exact Or.inr (hset rfl ht hactive rfl rfl)

/-- A row that is picked after a step was picked before it, or by it. -/
theorem Step.picked_origin {a : Action} (hstep : Step order s a s') {tid : Nat} {t' : Txn}
    (ht' : s'.txns tid = some t') (hactive' : t'.phase.active) {selection : Selection} {id : Uuid}
    (hid : id ∈ (t'.scan selection).picked) :
    ∃ t, s.txns tid = some t ∧ t.phase.active ∧ t.op = t'.op ∧ t.now = t'.now ∧
      (id ∈ (t.scan selection).picked ∨
        (a = .visit tid selection ∧ (t.scan selection).next = some id ∧
          s.locks.blocks tid (t.lock id) = false ∧
          t.recheck s.db selection id = some true)) := by
  -- the transaction that the step has set, if its picks are known, or another one
  have hset : ∀ {actor : Nat} {t u : Txn}, s'.txns = (s.setTxn actor u).txns →
      s.txns actor = some t → t.phase.active → u.op = t.op → u.now = t.now →
      (∀ other, ∀ i ∈ (u.scan other).picked, i ∈ (t.scan other).picked ∨
        (a = .visit actor other ∧ (t.scan other).next = some i ∧
          s.locks.blocks actor (t.lock i) = false ∧ t.recheck s.db other i = some true)) →
      ∃ t, s.txns tid = some t ∧ t.phase.active ∧ t.op = t'.op ∧ t.now = t'.now ∧
        (id ∈ (t.scan selection).picked ∨
          (a = .visit tid selection ∧ (t.scan selection).next = some id ∧
            s.locks.blocks tid (t.lock id) = false ∧
            t.recheck s.db selection id = some true)) := by
    intro actor t u htxns ht hactive hop hnow hpicked
    rw [htxns] at ht'
    by_cases hactor : tid = actor
    · subst hactor
      obtain rfl := Option.some.inj ((s.setTxn_self tid u).symm.trans ht')
      exact ⟨t, ht, hactive, hop.symm, hnow.symm, hpicked selection id hid⟩
    · exact ⟨t', (s.setTxn_other u hactor).symm.trans ht', hactive', rfl, rfl, Or.inl hid⟩
  have hscan : ∀ {t : Txn} {visited : Selection} {scan : Scan Uuid} {P : Selection → Uuid → Prop},
      (∀ i ∈ scan.picked, i ∈ (t.scan visited).picked ∨ P visited i) →
      ∀ other, ∀ i ∈ ((t.setScan visited scan).scan other).picked,
        i ∈ (t.scan other).picked ∨ P other i := by
    intro t visited scan P hpicked other i hi
    by_cases hother : other = visited
    · subst hother
      rw [t.setScan_self] at hi
      exact hpicked i hi
    · rw [t.setScan_other scan hother] at hi
      exact Or.inl hi
  cases hstep with
  | tick => exact ⟨t', ht', hactive', rfl, rfl, Or.inl hid⟩
  | @start actor op hidle =>
    by_cases hactor : tid = actor
    · subst hactor
      obtain rfl := Option.some.inj ((s.setTxn_self tid _).symm.trans ht')
      simp [Txn.begin] at hid
    · exact ⟨t', (s.setTxn_other _ hactor).symm.trans ht', hactive', rfl, rfl, Or.inl hid⟩
  | @snapshot actor t ht hphase =>
    refine hset rfl ht (by rw [hphase]; rfl) rfl rfl fun other i hi => ?_
    simp only [Operation.select_picked, List.not_mem_nil] at hi
  | pass ht hphase =>
    exact hset rfl ht (by rw [hphase]; rfl) rfl rfl (hscan fun i => Or.inl)
  | reject ht hphase =>
    exact hset rfl ht (by rw [hphase]; rfl) rfl rfl (hscan fun i => Or.inl)
  | @pick actor t visited picked ht hphase hnext hfree hrecheck =>
    refine hset rfl ht (by rw [hphase]; rfl) rfl rfl (hscan fun i hi => ?_)
    rcases List.mem_append.mp hi with hi | hi
    · exact Or.inl hi
    · obtain rfl := List.mem_singleton.mp hi
      exact Or.inr ⟨rfl, hnext, hfree, hrecheck⟩
  | count ht hphase | lockCounter ht hphase | commit ht hphase =>
    exact hset rfl ht (by rw [hphase]; rfl) rfl rfl fun _ _ => Or.inl
  | abort ht hactive => exact hset rfl ht hactive rfl rfl fun _ _ => Or.inl

/-- Identifiers that have been drawn stay drawn. -/
theorem Step.drawn {a : Action} (hstep : Step order s a s') :
    (∀ id ∈ s.messageIds, id ∈ s'.messageIds) ∧
      ∀ r ∈ s.receiptHandles, r ∈ s'.receiptHandles := by
  cases hstep with
  | start =>
    exact ⟨fun id hid => List.mem_append_right _ hid, fun r hr => List.mem_append_right _ hr⟩
  | _ => exact ⟨fun id hid => hid, fun r hr => hr⟩

/-! ## Spent identifiers -/

/-- The message id will not be enqueued again. -/
def System.IdSpent (s : System) (id : Uuid) : Prop :=
  id ∈ s.messageIds ∧
    ∀ tid t, s.txns tid = some t → t.phase.active → t.op.enqueuedId ≠ some id

/-- The receipt handle will not be given out again. -/
def System.HandleSpent (s : System) (receiptHandle : Uuid) : Prop :=
  receiptHandle ∈ s.receiptHandles ∧
    ∀ tid t, s.txns tid = some t → t.phase.active → t.op.drawnHandle ≠ some receiptHandle

theorem System.IdSpent.step {a : Action} {id : Uuid} (h : s.IdSpent id)
    (hstep : Step order s a s') : s'.IdSpent id := by
  refine ⟨hstep.drawn.1 id h.1, fun tid t' ht' hactive' hop => ?_⟩
  rcases hstep.txn_origin ht' hactive' with ⟨-, hfresh, -⟩ | ⟨t, ht, hactive, hsame, -⟩
  · exact hfresh id hop h.1
  · exact h.2 tid t ht hactive (hsame ▸ hop)

theorem System.HandleSpent.step {a : Action} {r : Uuid} (h : s.HandleSpent r)
    (hstep : Step order s a s') : s'.HandleSpent r := by
  refine ⟨hstep.drawn.2 r h.1, fun tid t' ht' hactive' hop => ?_⟩
  rcases hstep.txn_origin ht' hactive' with ⟨-, -, hfresh⟩ | ⟨t, ht, hactive, hsame, -⟩
  · exact hfresh r hop h.1
  · exact h.2 tid t ht hactive (hsame ▸ hop)

/-- The id of a live message is spent. -/
theorem System.Inv.live_spent (h : s.Inv) {m : QueueMessage} (hm : m ∈ s.db.queueMessage) :
    s.IdSpent m.id :=
  ⟨h.messageIds m hm, fun tid t ht hactive hop =>
    ((h.txn tid t ht hactive).messageId m.id hop).2.1 m hm rfl⟩

/-- A receipt handle is spent with the transaction that has drawn it. -/
theorem System.Inv.commit_spent (h : s.Inv) (order : TriggerOrder) (ht : s.txns tid = some t)
    (hactive : t.phase.active) {r : Uuid} (hr : t.op.drawnHandle = some r) :
    (s.commit order tid t).HandleSpent r := by
  refine ⟨((h.txn tid t ht hactive).handle r hr).1, fun other u hu huactive hop => ?_⟩
  obtain ⟨hu, hother⟩ := s.setTxn_ended rfl hu huactive
  exact hother (h.distinct other tid u t hu ht huactive hactive (Or.inr ⟨r, hop, hr⟩))

/-- A message id is spent with the transaction that has drawn it. -/
theorem System.Inv.commit_idSpent (h : s.Inv) (order : TriggerOrder) (ht : s.txns tid = some t)
    (hactive : t.phase.active) {id : Uuid} (hid : t.op.enqueuedId = some id) :
    (s.commit order tid t).IdSpent id := by
  refine ⟨((h.txn tid t ht hactive).messageId id hid).1, fun other u hu huactive hop => ?_⟩
  obtain ⟨hu, hother⟩ := s.setTxn_ended rfl hu huactive
  exact hother (h.distinct other tid u t hu ht huactive hactive (Or.inl ⟨id, hop, hid⟩))

/-! ## The log -/

/-- What the log says about its events. -/
structure System.LogInv (s : System) : Prop where
  effect : ∀ e ∈ s.log, e.before.Valid ∧
    ∃ queues, Effect queues e.before e.now e.op e.response e.after
  id : ∀ e ∈ s.log, ∀ m ∈ e.after.queueMessage, s.IdSpent m.id
  enqueuedId : ∀ e ∈ s.log, ∀ id ∈ e.op.enqueuedId, s.IdSpent id
  handle : ∀ e ∈ s.log, ∀ r ∈ e.op.drawnHandle, s.HandleSpent r

theorem Reachable.logInv (h : Reachable order s) : s.LogInv := by
  refine h.invariant ⟨by simp [System.initial], by simp [System.initial], by simp [System.initial],
    by simp [System.initial]⟩ fun s a s' hrun hlog _ hstep => ?_
  have hinv := Reachable.inv hrun
  have hstep := step_cases hstep
  rcases hstep.committed with ⟨hsame, -⟩ | ⟨tid, t, rfl, ht, hactive, rfl⟩
  · exact {
      effect := fun e he => hlog.effect e (hsame ▸ he)
      id := fun e he m hm => (hlog.id e (hsame ▸ he) m hm).step hstep
      enqueuedId := fun e he id hid => (hlog.enqueuedId e (hsame ▸ he) id hid).step hstep
      handle := fun e he r hr => (hlog.handle e (hsame ▸ he) r hr).step hstep }
  · obtain ⟨heffect, -⟩ := (hinv.txn tid t ht hactive).execute_effect hinv.valid order
    refine ⟨List.forall_mem_append.mpr ⟨hlog.effect, ?_⟩,
      List.forall_mem_append.mpr ⟨fun e he m hm => (hlog.id e he m hm).step hstep, ?_⟩,
      List.forall_mem_append.mpr ⟨fun e he id hid => (hlog.enqueuedId e he id hid).step hstep, ?_⟩,
      List.forall_mem_append.mpr ⟨fun e he r hr => (hlog.handle e he r hr).step hstep, ?_⟩⟩
    · exact List.forall_mem_singleton.mpr ⟨hinv.valid, _, heffect⟩
    · exact List.forall_mem_singleton.mpr fun m hm => (hinv.step hstep).live_spent hm
    · exact List.forall_mem_singleton.mpr fun id hid => hinv.commit_idSpent order ht hactive hid
    · exact List.forall_mem_singleton.mpr fun r hr => hinv.commit_spent order ht hactive hr

end Retsu
