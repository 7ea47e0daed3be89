/-
  Every operation does to the view of a queue what `QueueView.run` says.

  `Shows db now v` connects the two levels: what can be seen of the queue in the database at
  `now` is `v`.  Operations that are not on the queue go unnoticed (`Shows.unnoticed`), those on
  it answer as the view does and leave what the view leaves (`Shows.simulates`).  Rows that no
  dequeue and no acknowledge will ever select again are not shown, whether they are still in
  the table or not.
-/
import Retsu.History
import Retsu.QueueView

namespace Retsu

open Relational

variable {db db' : Database} {v v' : QueueView} {queue : QueueRow} {now : Int}
  {order : TriggerOrder}

/-! ## What a database shows -/

/-- The message belongs to the queue and has not expired. -/
def isVisible (queueId : Uuid) (now : Int) (m : QueueMessage) : Bool :=
  m.queueId = queueId ∧ isExpired now m = false

theorem isVisible_of_queue {queueId : Uuid} {m : QueueMessage} (h : m.queueId = queueId) :
    isVisible queueId now m = !isExpired now m := by
  cases hexpired : isExpired now m <;> simp [isVisible, h, hexpired]

/-- A message that can be delivered is visible. -/
theorem isCandidate_isVisible {m : QueueMessage} (h : isCandidate queue now m) :
    isVisible queue.id now m := by
  simp only [isCandidate, decide_eq_true_eq] at h
  simp only [isVisible, isExpired, decide_eq_true_eq, decide_eq_false_iff_not]
  exact ⟨h.1.symm, by omega⟩

theorem isDeadLetterCandidate_isVisible {m : QueueMessage} (h : isDeadLetterCandidate queue now m) :
    isVisible queue.id now m := by
  simp only [isDeadLetterCandidate, decide_eq_true_eq] at h
  simp only [isVisible, isExpired, decide_eq_true_eq, decide_eq_false_iff_not]
  exact ⟨h.1.symm, by omega⟩

/-- A message whose lease runs is visible. -/
theorem isAcknowledgeable_isVisible {m : QueueMessage} (hchecked : Checked queueMessageChecks m)
    {queueId messageId receiptHandle : Uuid}
    (h : isAcknowledgeable queueId messageId receiptHandle now m) : isVisible queueId now m := by
  simp only [isAcknowledgeable, decide_eq_true_eq] at h
  obtain ⟨-, hqueueId, hhandle, havailable⟩ := h
  simp only [isVisible, isExpired, decide_eq_true_eq, decide_eq_false_iff_not]
  refine ⟨hqueueId, ?_⟩
  rintro ⟨-, hready | ⟨-, hended⟩⟩
  · rcases (QueueMessage.checked_iff.mp hchecked).2.2.2.1 with ⟨-, hnone, -⟩ | ⟨hflight, -⟩
    · rw [hnone] at hhandle
      simp at hhandle
    · rw [hready] at hflight
      simp at hflight
  · omega

theorem view_at_messages (db : Database) (queue : QueueRow) (now : Int) :
    ((db.view queue).at now).messages =
      (db.queueMessage.filter (isVisible queue.id now)).map (·.unordered) := by
  show List.filter _ (List.map _ _) = _
  rw [List.filter_map, List.filter_filter]
  congr 1
  refine List.filter_congr fun m _ => ?_
  show (!isExpired now m && decide (m.queueId = queue.id)) = _
  cases hexpired : isExpired now m <;> simp [isVisible, hexpired]

/-- What can be seen of the queue at `now` is the view. -/
structure Database.Shows (db : Database) (now : Int) (v : QueueView) : Prop where
  queue : v.queue ∈ db.queue
  visible : (db.view v.queue).at now = v.at now

theorem shows_view (h : queue ∈ db.queue) (now : Int) : db.Shows now (db.view queue) := ⟨h, rfl⟩

namespace Database.Shows

variable (h : db.Shows now v)

include h

/-- What is shown now can be told from it later. -/
theorem mono {later : Int} (hle : now ≤ later) : db.Shows later v := by
  refine ⟨h.queue, ?_⟩
  rw [← QueueView.at_at _ hle, h.visible, QueueView.at_at _ hle]

theorem messages : (v.at now).messages =
    (db.queueMessage.filter (isVisible v.queue.id now)).map (·.unordered) := by
  rw [← h.visible, view_at_messages]

/-- A selection of visible messages sees in the view what it sees in the table. -/
theorem filter {p : QueueMessage → Bool}
    (hvisible : ∀ m ∈ db.queueMessage, p m → isVisible v.queue.id now m)
    (hunordered : ∀ m, p m.unordered = p m) :
    (v.at now).messages.filter p = (db.queueMessage.filter p).map (·.unordered) := by
  rw [h.messages, List.filter_map, List.filter_filter]
  congr 1
  refine List.filter_congr fun m hm => ?_
  simp only [Function.comp_apply, hunordered]
  cases hp : p m with
  | false => rfl
  | true => rw [hvisible m hm hp]; rfl

end Database.Shows

theorem shows_of_messages (hqueue : v.queue ∈ db.queue)
    (hmessages : (v.at now).messages =
      (db.queueMessage.filter (isVisible v.queue.id now)).map (·.unordered)) :
    db.Shows now v := by
  refine ⟨hqueue, ?_⟩
  show QueueView.mk v.queue ((db.view v.queue).at now).messages =
    QueueView.mk v.queue (v.at now).messages
  rw [view_at_messages, hmessages]

/-- Messages that are not shown may change. -/
theorem Database.Shows.frame (h : db.Shows now v) (hqueue : v.queue ∈ db'.queue)
    (hmessages : db'.queueMessage.filter (isVisible v.queue.id now) =
      db.queueMessage.filter (isVisible v.queue.id now)) : db'.Shows now v :=
  shows_of_messages hqueue (by rw [hmessages, h.messages])

/-! ## The database between operations -/

/-- What operations that run one after the other leave. -/
structure Database.Settled (db : Database) (now : Int) : Prop where
  valid : db.Valid
  disjoint : ∀ m ∈ db.queueMessage, ∀ d ∈ db.queueDeadLetterMessage, d.id ≠ m.id
  timely : ∀ m ∈ db.queueMessage, m.enqueuedAt ≤ now
  sorted : (db.queueMessage.map (·.enqueueOrder)).Pairwise (· < ·)

/-- Only an enqueue adds to the message table. -/
theorem Effect.orders_sublist {queues : List QueueRow} {op : Operation} {response : Response}
    (heffect : Effect queues db now op response db') (hop : op.enqueuedId = none) :
    (db'.queueMessage.map (·.enqueueOrder)).Sublist (db.queueMessage.map (·.enqueueOrder)) := by
  cases heffect with
  | enqueued => simp [Operation.enqueuedId] at hop
  | acknowledged | expired => exact List.filter_sublist.map _
  | dequeued =>
    rw [dequeuedMessages_map fun _ => rfl]
    exact List.filter_sublist.map _
  | _ => exact List.Sublist.refl _

/-- Messages are in the table in the order of their enqueues. -/
theorem Run.sorted {events : List Event} (run : Run order events db) :
    (db.queueMessage.map (·.enqueueOrder)).Pairwise (· < ·) := by
  induction run with
  | start => simp [Database.empty]
  | @step events db run c htime hfresh ih =>
    cases hid : c.op.enqueuedId with
    | none => exact ih.sublist ((c.op.run_effect run.valid order c.now).1.orders_sublist hid)
    | some id =>
      obtain ⟨now, op⟩ := c
      cases op with
      | enqueueMessage queueId message ttl =>
        show (((enqueueMessage db now queueId message ttl).1.queueMessage).map _).Pairwise _
        rcases (enqueueMessage_cases db now queueId message ttl).2 with ⟨-, hsame⟩ | ⟨-, happend⟩
        · rw [hsame]
          exact ih
        · rw [happend, List.map_append, List.pairwise_append]
          refine ⟨ih, List.pairwise_singleton _ _, fun o ho o' ho' => ?_⟩
          obtain ⟨m, hm, rfl⟩ := List.mem_map.mp ho
          rw [List.mem_singleton.mp ho']
          exact run.valid.drawn m hm
      | _ => simp [Operation.enqueuedId] at hid

theorem Run.settled {events : List Event} (run : Run order events db)
    (hnow : ∀ e ∈ events, e.now ≤ now) : db.Settled now :=
  ⟨run.valid, run.disjoint, run.enqueuedAt_le hnow, run.sorted⟩

/-! ## Dequeues in the table and in the view -/

section Dequeue

variable {receiptHandle : Uuid} {visibility : Int} {exhausted : List Uuid}
  {candidate : Option Uuid} {messages : List QueueMessage}

/-- A dequeue keeps the messages that it has not selected. -/
theorem dequeuedMessages_unselected
    (h : ∀ m ∈ messages, m.id ∉ exhausted ∧ candidate ≠ some m.id) :
    dequeuedMessages receiptHandle now visibility exhausted candidate messages = messages := by
  rw [dequeuedMessages, List.filter_eq_self.mpr fun m hm => by simpa using (h m hm).1]
  conv_rhs => rw [← List.map_id messages]
  exact List.map_congr_left fun m hm => if_neg (h m hm).2

/-- A dequeue keeps messages in their queue. -/
theorem dequeuedMessages_queue {queueId : Uuid} (h : ∀ m ∈ messages, m.queueId = queueId) :
    ∀ m ∈ dequeuedMessages receiptHandle now visibility exhausted candidate messages,
      m.queueId = queueId := by
  intro m hm
  obtain ⟨r, hr, -, rfl⟩ := mem_dequeuedMessages.mp hm
  split
  · exact h r hr
  · exact h r hr

/-- What is visible after a dequeue comes from what was visible before it. -/
theorem dequeuedMessages_visible {queueId : Uuid}
    (h : ∀ m ∈ messages, candidate = some m.id →
      isVisible queueId now (m.lease receiptHandle now visibility) → isVisible queueId now m) :
    (dequeuedMessages receiptHandle now visibility exhausted candidate messages).filter
        (isVisible queueId now) =
      (dequeuedMessages receiptHandle now visibility exhausted candidate
        (messages.filter (isVisible queueId now))).filter (isVisible queueId now) := by
  simp only [dequeuedMessages, List.filter_map, List.filter_filter]
  congr 1
  refine List.filter_congr fun m hm => ?_
  simp only [Function.comp_apply]
  split
  · rename_i hcandidate
    cases hleased : isVisible queueId now (m.lease receiptHandle now visibility) with
    | false => simp
    | true => simp [h m hm hcandidate hleased]
  · cases isVisible queueId now m <;> simp

/-- The values of the sequence play no part in a dequeue. -/
theorem dequeuedMessages_unordered :
    (dequeuedMessages receiptHandle now visibility exhausted candidate messages).map
        (·.unordered) =
      dequeuedMessages receiptHandle now visibility exhausted candidate
        (messages.map (·.unordered)) := by
  simp only [dequeuedMessages, List.filter_map, List.map_map]
  refine List.map_congr_left fun m _ => ?_
  simp only [Function.comp_apply]
  split
  · rename_i hcandidate
    exact (if_pos hcandidate).symm
  · rename_i hcandidate
    exact (if_neg hcandidate).symm

end Dequeue

/-! ## Operations on other queues, and cleaners -/

/-- **Operations elsewhere go unnoticed**, and so do cleaners. -/
theorem Database.Shows.unnoticed (h : db.Shows now v) (hvalid : db.Valid) {op : Operation}
    {response : Response} (heffect : Effect db.queue db now op response db')
    (hop : v.run now op = none) : db'.Shows now v := by
  cases heffect with
  | failed | alreadyExists | notConfigured | queueNotFound | unchanged | purged =>
    exact h.frame h.queue rfl
  | created => exact h.frame (List.mem_append_left _ h.queue) rfl
  | @configured queueId _ row updated _ hrow hrowid =>
    have hother : v.queue.id ≠ queueId := by
      rintro rfl
      simp [QueueView.run] at hop
    exact h.frame (List.mem_map.mpr ⟨v.queue, h.queue, if_neg hother⟩) rfl
  | @enqueued queueId message ttl o =>
    have hother : queueId ≠ v.queue.id := by
      rintro rfl
      simp [QueueView.run] at hop
    refine h.frame h.queue ?_
    have hhidden : isVisible v.queue.id now (message.row queueId ttl o now) = false := by
      simp [isVisible, Message.row, hother]
    rw [List.filter_append, List.filter_singleton, hhidden]
    exact List.append_nil _
  | @dequeued queueId receiptHandle queue exhausted deleted candidate stored outcome shards hqueue
      hchecked hid hnodup hexhausted hcandidate =>
    have hother : queue.id ≠ v.queue.id := by
      rintro heq
      simp [QueueView.run, ← hid, heq] at hop
    -- the statement selects messages of its own queue only
    have hselected : ∀ m ∈ db.queueMessage, m.queueId = v.queue.id →
        m.id ∉ exhausted.map (·.id) ∧ candidate.map (·.id) ≠ some m.id := by
      intro m hm hmq
      constructor
      · intro hmem
        have hexhausted := of_key_mem hvalid.messages.ids hexhausted hm hmem
        simp only [isDeadLetterCandidate, decide_eq_true_eq] at hexhausted
        exact hother (hexhausted.1.trans hmq)
      · intro hsome
        have hcandidate := of_key_eq_some hvalid.messages.ids hcandidate hm hsome
        simp only [isCandidate, decide_eq_true_eq] at hcandidate
        exact hother (hcandidate.1.1.trans hmq)
    refine h.frame h.queue ?_
    show (dequeuedMessages _ _ _ _ _ _).filter _ = _
    rw [dequeuedMessages_visible, dequeuedMessages_unselected, List.filter_filter]
    · simp only [Bool.and_self]
    · intro m hm
      obtain ⟨hm, hvisible⟩ := List.mem_filter.mp hm
      simp only [isVisible, decide_eq_true_eq] at hvisible
      exact hselected m hm hvisible.1
    · intro m hm hcand hvisible
      simp only [isVisible, decide_eq_true_eq] at hvisible
      exact absurd hcand (hselected m hm hvisible.1).2
  | @acknowledged queueId messageId receiptHandle m shards hm hack =>
    have hother : queueId ≠ v.queue.id := by
      rintro rfl
      simp [QueueView.run] at hop
    simp only [isAcknowledgeable, decide_eq_true_eq] at hack
    refine h.frame h.queue ?_
    rw [List.filter_filter]
    refine List.filter_congr fun r hr => ?_
    cases hvisible : isVisible v.queue.id now r with
    | false => rfl
    | true =>
      simp only [isVisible, decide_eq_true_eq] at hvisible
      -- the message of another queue that goes away is not this one
      have : r.id ≠ messageId := by
        intro hid
        rw [eq_of_key_eq hvalid.messages.ids hr hm (hid.trans hack.1.symm)] at hvisible
        exact hother (hack.2.1.symm.trans hvisible.1)
      simp [this]
  | @expired batchSize expired summary shards hexpired =>
    refine h.frame h.queue ?_
    rw [List.filter_filter]
    refine List.filter_congr fun r hr => ?_
    cases hvisible : isVisible v.queue.id now r with
    | false => rfl
    | true =>
      simp only [isVisible, decide_eq_true_eq] at hvisible
      -- what the cleanup deletes has expired
      have : r.id ∉ expired.map (·.id) := by
        intro hmem
        rw [of_key_mem hvalid.messages.ids hexpired hr hmem] at hvisible
        simp at hvisible
      simp [this]

/-! ## Operations on the queue -/

namespace Database.Shows

/-- A view that has dropped what has expired shows the same. -/
theorem current (h : db.Shows now v) : db.Shows now (v.at now) :=
  ⟨h.queue, h.visible.trans (QueueView.at_at v le_rfl).symm⟩

/-- Messages can be taken out of the view as they are taken out of the table. -/
theorem restrict (h : db.Shows now v) {p : QueueMessage → Bool}
    {shards : List QueuePriorityStateShard} (hunordered : ∀ m, p m.unordered = p m) :
    (db.withMessages (db.queueMessage.filter p) shards).Shows now
      { v with messages := v.messages.filter p } := by
  refine shows_of_messages h.queue ?_
  show (v.messages.filter p).filter (fun m => !isExpired now m) =
    ((db.queueMessage.filter p).filter (isVisible v.queue.id now)).map (·.unordered)
  have hmessages : v.messages.filter (fun m => !isExpired now m) = _ := h.messages
  rw [List.filter_filter, List.filter_congr fun m _ => Bool.and_comm _ _, ← List.filter_filter,
    hmessages, List.filter_map, List.filter_filter, List.filter_filter]
  congr 1
  refine List.filter_congr fun m _ => ?_
  rw [Function.comp_apply, hunordered, Bool.and_comm]

/-- **Enqueue**: the view stores the message if the table does. -/
theorem enqueue (h : db.Shows now v) (hdb : db.Settled now) (message : Message) (ttl : UInt32)
    (hfresh : ∀ m ∈ db.queueMessage, m.id ≠ message.id) :
    (enqueueMessage db now v.queue.id message ttl).2 = ((v.at now).enqueue now message ttl).2 ∧
      (enqueueMessage db now v.queue.id message ttl).1.Shows now
        ((v.at now).enqueue now message ttl).1 := by
  let drawn : Database := { db with enqueueOrderSequence := db.enqueueOrderSequence + 1 }
  let row := message.row v.queue.id ttl db.enqueueOrderSequence now
  have hrun : enqueueMessage db now v.queue.id message ttl =
      settle drawn (fun () => .enqueueMessage) (executeEnqueue drawn row) := rfl
  have hcheckRow : checkRow queueMessageChecks (message.row (v.at now).queue.id ttl 0 now) =
      checkRow queueMessageChecks row := rfl
  have hdrawn : drawn.Valid := hdb.valid.draw (Int.le.intro 1 rfl)
  have hqueue : ∃ q ∈ drawn.queue, q.id = row.queueId := ⟨v.queue, h.queue, rfl⟩
  rcases executeEnqueue_eq hdrawn hqueue hfresh (fun m hm => (hdb.valid.drawn m hm).ne) with
    ⟨e, hcheck, hexec⟩ | ⟨hchecked, shards, hexec⟩
  · rw [hrun, hexec]
    simp only [settle, QueueView.enqueue, hcheckRow, hcheck, true_and]
    exact h.current.frame h.queue rfl
  · rw [hrun, hexec]
    simp only [settle, QueueView.enqueue, hcheckRow, checkRow_eq_ok.mpr hchecked, true_and]
    refine shows_of_messages h.queue ?_
    show List.filter _ (_ ++ [row.unordered]) =
      ((db.queueMessage ++ [row]).filter (isVisible v.queue.id now)).map _
    rw [List.filter_append, List.filter_append, List.map_append]
    congr 1
    · exact h.current.messages
    · have hrow : isVisible v.queue.id now row = !isExpired now row.unordered :=
        isVisible_of_queue rfl
      rw [List.filter_singleton, List.filter_singleton, hrow]
      cases isExpired now row.unordered <;> rfl

/-- The view has the candidate that the statement selects. -/
theorem candidate (h : db.Shows now v) (hdb : db.Settled now) :
    (v.at now).candidate now = (deliveryCandidates db v.queue now).head?.map (·.unordered) := by
  have hfilter := h.filter (p := isCandidate v.queue now)
    (fun _ _ hcandidate => isCandidate_isVisible hcandidate) fun _ => rfl
  have hsorted : (db.queueMessage.filter (isCandidate v.queue now)).Pairwise fun m m' =>
      deliveryOrder m ≤ deliveryOrder m' ↔ -m.priority ≤ -m'.priority := by
    refine ((List.pairwise_map.mp hdb.sorted).sublist List.filter_sublist).imp fun horder => ?_
    rw [deliveryOrder, deliveryOrder, Prod.Lex.toLex_le_toLex]
    omega
  show (orderBy _ ((v.at now).messages.filter (isCandidate v.queue now))).head? = _
  rw [hfilter, orderBy_map, List.head?_map, deliveryCandidates, orderBy_stable hsorted]
  rfl

/-- The view has the exhausted messages that the statement selects. -/
theorem exhausted (h : db.Shows now v) : (v.at now).exhausted now =
    ((deadLetterCandidates db v.queue now).take dequeueDeadLetterBatchSize).map
      (·.unordered) := by
  have hfilter := h.filter (p := isDeadLetterCandidate v.queue now)
    (fun _ _ hexhausted => isDeadLetterCandidate_isVisible hexhausted) fun _ => rfl
  show (orderBy _ ((v.at now).messages.filter (isDeadLetterCandidate v.queue now))).take _ = _
  rw [hfilter, orderBy_map, List.map_take]
  rfl

/-- **Dequeue**: the view delivers and gives up what the statement does. -/
theorem dequeue (h : db.Shows now v) (hdb : db.Settled now) (order : TriggerOrder)
    (receiptHandle : Uuid) :
    (dequeueMessage order db now v.queue.id receiptHandle).2 =
        ((v.at now).dequeue now receiptHandle).2 ∧
      (dequeueMessage order db now v.queue.id receiptHandle).1.Shows now
        ((v.at now).dequeue now receiptHandle).1 := by
  have hsel := dequeueSelection hdb.valid h.queue now
  obtain ⟨deleted, stored, shards, -, -, hok, -⟩ := executeDequeue_ok order receiptHandle hdb.valid
    hsel (fun m hm => hdb.disjoint m (hsel.exhausted m hm).1)
    (fun m hm => hdb.timely m (hsel.candidate m hm).1)
  have hfind : targetQueue db v.queue.id = some v.queue :=
    hdb.valid.find_queue.mpr ⟨h.queue, rfl⟩
  simp only [dequeueMessage, hfind, hok, settle]
  constructor
  · rw [QueueView.dequeue, h.candidate hdb, h.exhausted, List.length_map]
    cases (deliveryCandidates db v.queue now).head? <;> rfl
  · refine shows_of_messages h.queue ?_
    show List.filter _ (dequeuedMessages receiptHandle now v.queue.visibilityTimeoutSeconds
      (((v.at now).exhausted now).map (·.id)) (((v.at now).candidate now).map (·.id))
      (v.at now).messages) = List.map _ (List.filter _ (dequeuedMessages _ _ _ _ _ _))
    have hids : ((v.at now).exhausted now).map (·.id) =
          ((deadLetterCandidates db v.queue now).take dequeueDeadLetterBatchSize).map (·.id) ∧
        ((v.at now).candidate now).map (·.id) =
          (deliveryCandidates db v.queue now).head?.map (·.id) := by
      rw [h.exhausted, h.candidate hdb, List.map_map, Option.map_map]
      exact ⟨rfl, rfl⟩
    rw [hids.1, hids.2, dequeuedMessages_visible, h.messages, ← dequeuedMessages_unordered,
      List.filter_map]
    · congr 1
      refine List.filter_congr fun m hm => (isVisible_of_queue ?_).symm
      refine dequeuedMessages_queue (fun r hr => ?_) m hm
      have hvisible := (List.mem_filter.mp hr).2
      simp only [isVisible, decide_eq_true_eq] at hvisible
      exact hvisible.1
    · intro m hm hsome _
      exact isCandidate_isVisible (of_key_eq_some hdb.valid.messages.ids hsel.candidate hm hsome)

/-- **Acknowledge**: the view has the message if the statement finds it. -/
theorem acknowledge (h : db.Shows now v) (hdb : db.Settled now) (messageId receiptHandle : Uuid) :
    (acknowledgeMessage db now v.queue.id messageId receiptHandle).2 =
        ((v.at now).acknowledge now messageId receiptHandle).2 ∧
      (acknowledgeMessage db now v.queue.id messageId receiptHandle).1.Shows now
        ((v.at now).acknowledge now messageId receiptHandle).1 := by
  have hfilter := h.filter (p := isAcknowledgeable v.queue.id messageId receiptHandle now)
    (fun m hm hack => isAcknowledgeable_isVisible (hdb.valid.messages.checked m hm) hack)
    fun _ => rfl
  have hrun : acknowledgeMessage db now v.queue.id messageId receiptHandle =
      settle db .acknowledgeMessage (executeAcknowledge db ((db.queueMessage.filter
        (isAcknowledgeable v.queue.id messageId receiptHandle now)).map (·.id))) := rfl
  rcases found_cases hdb.valid v.queue.id messageId receiptHandle now with
    hfound | ⟨m, hid, hfound⟩
  · have hnone : ¬(v.at now).messages.any
        (isAcknowledgeable v.queue.id messageId receiptHandle now) := by
      rw [hfound, List.map_nil, List.filter_eq_nil_iff] at hfilter
      simpa using hfilter
    have hview : (v.at now).acknowledge now messageId receiptHandle =
        (v.at now, .acknowledgeMessage .unchanged) := if_neg hnone
    rw [hrun, hfound, List.map_nil, executeAcknowledge_nil hdb.valid, hview]
    exact ⟨rfl, h.current⟩
  · have hm : m ∈ db.queueMessage := (List.mem_filter.mp (hfound ▸ List.mem_singleton_self m)).1
    have hany : (v.at now).messages.any
        (isAcknowledgeable v.queue.id messageId receiptHandle now) := by
      have hmem : m.unordered ∈ (v.at now).messages.filter
          (isAcknowledgeable v.queue.id messageId receiptHandle now) := by
        rw [hfilter, hfound]
        exact List.mem_singleton_self _
      exact List.any_eq_true.mpr ⟨_, List.mem_filter.mp hmem⟩
    have hview : (v.at now).acknowledge now messageId receiptHandle =
        ({ v.at now with messages := (v.at now).messages.filter fun m => m.id ≠ messageId },
          .acknowledgeMessage .acknowledged) := if_pos hany
    obtain ⟨shards, hok, -⟩ := executeAcknowledge_singleton hdb.valid hm
    rw [hrun, hfound, List.map_singleton, hok, hview, hid]
    exact ⟨rfl, h.current.restrict (p := fun m => m.id ≠ messageId) fun _ => rfl⟩

/-- **Update**: the view is configured as the row is. -/
theorem update (h : db.Shows now v) (hdb : db.Settled now)
    (configuration : QueueConfigurationUpdate) :
    (updateQueue db now v.queue.id configuration).2 = ((v.at now).update now configuration).2 ∧
      (updateQueue db now v.queue.id configuration).1.Shows now
        ((v.at now).update now configuration).1 := by
  have hfind : db.queue.find? (fun q => q.id = v.queue.id) = some v.queue :=
    hdb.valid.find_queue.mpr ⟨h.queue, rfl⟩
  cases hparameters : configuration.parameters with
  | error e =>
    simp only [updateQueue, QueueView.update, hparameters, true_and]
    exact h.current
  | ok parameters =>
    obtain ⟨visibility, attempts, ttl⟩ := parameters
    have hcheckRow : checkRow queueChecks ((v.at now).queue.configure now visibility attempts ttl) =
        checkRow queueChecks (v.queue.configure now visibility attempts ttl) := rfl
    cases hcheck : checkRow queueChecks (v.queue.configure now visibility attempts ttl) with
    | error e =>
      simp only [updateQueue, QueueView.update, hparameters, configureQueue, hfind, hcheckRow, hcheck,
        settle, bind, Except.bind, true_and]
      exact h.current
    | ok u =>
      simp only [updateQueue, QueueView.update, hparameters, configureQueue, hfind, hcheckRow, hcheck,
        settle, bind, Except.bind, pure, Except.pure]
      refine ⟨rfl, shows_of_messages ?_ h.current.messages⟩
      exact List.mem_map.mpr ⟨v.queue, h.queue, if_pos rfl⟩

/-- **The view answers as the database does**, and they stay in step. -/
theorem simulates (h : db.Shows now v) (hdb : db.Settled now) (order : TriggerOrder)
    {op : Operation} {response : Response} (hrun : v.run now op = some (v', response))
    (hfresh : ∀ id ∈ op.enqueuedId, ∀ m ∈ db.queueMessage, m.id ≠ id) :
    (op.run order db now).2 = response ∧ (op.run order db now).1.Shows now v' := by
  cases op with
  | createQueue | processExpiredMessages | purgeDeadLetterMessages => simp [QueueView.run] at hrun
  | updateQueue queueId configuration =>
    simp only [QueueView.run, Option.ite_none_right_eq_some, Option.some.injEq] at hrun
    obtain ⟨rfl, hrun⟩ := hrun
    have hstep := h.update hdb configuration
    rwa [hrun] at hstep
  | enqueueMessage queueId message ttl =>
    simp only [QueueView.run, Option.ite_none_right_eq_some, Option.some.injEq] at hrun
    obtain ⟨rfl, hrun⟩ := hrun
    have hstep := h.enqueue hdb message ttl (hfresh _ rfl)
    rwa [hrun] at hstep
  | dequeueMessage queueId receiptHandle =>
    simp only [QueueView.run, Option.ite_none_right_eq_some, Option.some.injEq] at hrun
    obtain ⟨rfl, hrun⟩ := hrun
    have hstep := h.dequeue hdb order receiptHandle
    rwa [hrun] at hstep
  | acknowledgeMessage queueId messageId receiptHandle =>
    simp only [QueueView.run, Option.ite_none_right_eq_some, Option.some.injEq] at hrun
    obtain ⟨rfl, hrun⟩ := hrun
    have hstep := h.acknowledge hdb messageId receiptHandle
    rwa [hrun] at hstep

end Database.Shows

end Retsu
