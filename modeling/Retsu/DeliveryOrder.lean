/-
  Delivery order: highest priority first, then first enqueued first, and no false empty.

  A single dequeue delivers the head of `deliveryCandidates` (`Run.dequeue_head`).  The sequence
  behind `enqueue_order` turns the order of the column into the order of the enqueue events
  (`Run.sequence_le`), and `Run.undelivered` keeps a message that was never delivered and has
  not expired in the table as it was stored, so no later message can pass it.
-/
import Retsu.History

namespace Retsu

open Relational

variable {order : TriggerOrder} {events : List Event} {db : Database}

/-! ## One dequeue -/

/-- The queue can deliver the message at `now`. -/
structure Deliverable (queue : QueueRow) (now : Int) (m : QueueMessage) : Prop where
  ofQueue : m.queueId = queue.id
  unexpired : now < m.expiresAt
  attempts : m.deliveryAttempts < queue.maxDeliveryAttempts
  available : m.state = .ready ∨ (m.state = .inFlight ∧ m.availableAfter ≤ now)

theorem deliverable_iff {queue : QueueRow} {now : Int} {m : QueueMessage} :
    Deliverable queue now m ↔ isCandidate queue now m := by
  have hstate : (m.state = .ready ∨ m.availableAfter ≤ now) ↔
      (m.state = .ready ∨ (m.state = .inFlight ∧ m.availableAfter ≤ now)) := by
    cases m.state <;> simp
  simp only [isCandidate, decide_eq_true_eq, hstate]
  exact ⟨fun h => ⟨h.ofQueue.symm, h.unexpired, h.attempts, h.available⟩,
    fun h => ⟨h.1.symm, h.2.1, h.2.2.1, h.2.2.2⟩⟩

/-- What the order of delivery means. -/
theorem deliveryOrder_le {m m' : QueueMessage} : deliveryOrder m ≤ deliveryOrder m' ↔
    m'.priority < m.priority ∨
      (m'.priority = m.priority ∧ m.enqueueOrder ≤ m'.enqueueOrder) := by
  rw [deliveryOrder, deliveryOrder, Prod.Lex.toLex_le_toLex]
  omega

/-- A dequeue in a run delivers the first of the deliverable messages, if there is one. -/
theorem Run.dequeue_head (run : Run order events db) {e : Event} (he : e ∈ events)
    {queueId receiptHandle : Uuid} (hop : e.op = .dequeueMessage queueId receiptHandle)
    {queue : QueueRow} (hqueue : queue ∈ e.before.queue) (hid : queue.id = queueId) :
    e.response.delivered = (deliveryCandidates e.before queue e.now).head?.map (·.id) := by
  obtain ⟨before, after, -, hbefore, -, hevent, htime, -⟩ := run.cut he
  have hfind := hbefore.valid.find_queue.mpr ⟨hqueue, hid⟩
  obtain ⟨stored, shards, outcome, hdelivers, hok⟩ := dequeueMessage_eq hbefore.valid order
    receiptHandle hfind hbefore.disjoint (hbefore.enqueuedAt_le htime)
  have hresponse : e.response = .dequeueMessage outcome := by
    rw [hevent, hop]
    exact congrArg Prod.snd hok
  rw [hresponse, hdelivers.delivered]

/-- A delivery in a run, with the message it leased. -/
theorem Run.delivery (run : Run order events db) {e : Event} (he : e ∈ events) {id : Uuid}
    (hid : e.response.delivered = some id) :
    ∃ queue receiptHandle m, e.op = .dequeueMessage queue.id receiptHandle ∧
      queue ∈ e.before.queue ∧ m ∈ e.before.queueMessage ∧ m.id = id ∧
      Deliverable queue e.now m ∧
      ∀ m' ∈ e.before.queueMessage, Deliverable queue e.now m' →
        deliveryOrder m ≤ deliveryOrder m' := by
  obtain ⟨hvalid, heffect⟩ := run.effect he
  obtain ⟨queue, receiptHandle, -, hop, hqueue, -, -, -, -, -, -⟩ := heffect.delivered hvalid hid
  have hhead := run.dequeue_head he hop hqueue rfl
  rw [hid] at hhead
  obtain ⟨m, hm, hmid⟩ := Option.map_eq_some_iff.mp hhead.symm
  obtain ⟨hmem, hmin⟩ := head?_orderBy_eq_some hm
  obtain ⟨hmdb, hcandidate⟩ := List.mem_filter.mp hmem
  exact ⟨queue, receiptHandle, m, hop, hqueue, hmdb, hmid, deliverable_iff.mpr hcandidate,
    fun m' hm' hd => hmin m' (List.mem_filter.mpr ⟨hm', deliverable_iff.mp hd⟩)⟩

/-! ## The order of enqueues -/

/-- An event that stores a row draws the next value. -/
theorem Event.Enqueues.sequence_lt {e : Event} {row : QueueMessage} (henqueues : e.Enqueues row)
    (hevent : e = Call.event order e.before ⟨e.now, e.op⟩) :
    row.enqueueOrder = e.before.enqueueOrderSequence ∧
      e.before.enqueueOrderSequence < e.after.enqueueOrderSequence := by
  obtain ⟨queueId, message, ttl, hop, -, rfl⟩ := henqueues
  refine ⟨rfl, ?_⟩
  have hafter : e.after.enqueueOrderSequence = e.before.enqueueOrderSequence + 1 := by
    rw [hevent, hop]
    exact (enqueueMessage_cases e.before e.now queueId message ttl).1
  omega

theorem Run.sequence_le {before after : List Event} {e : Event}
    (run : Run order (before ++ e :: after) db) :
    (∀ e' ∈ after, e.after.enqueueOrderSequence ≤ e'.before.enqueueOrderSequence) ∧
      e.after.enqueueOrderSequence ≤ db.enqueueOrderSequence := by
  induction after using List.reverseRecOn generalizing db with
  | nil =>
    obtain ⟨-, hupto, -⟩ := run.split
    rw [run.unique hupto]
    exact ⟨by simp, le_rfl⟩
  | append_singleton after last ih =>
    generalize hes : before ++ e :: (after ++ [last]) = es at run
    cases run with
    | start => simp at hes
    | @step events db run c htime hfresh =>
      rw [← List.cons_append, ← List.append_assoc] at hes
      obtain ⟨rfl, hlast⟩ := List.append_inj' hes rfl
      obtain rfl := List.singleton_inj.mp hlast
      obtain ⟨hall, hdb⟩ := ih run
      refine ⟨List.forall_mem_append.mpr ⟨hall, ?_⟩, hdb.trans ?_⟩
      · intro e' he'
        rw [List.mem_singleton.mp he']
        exact hdb
      · exact (c.op.run_effect run.valid order c.now).1.sequence_le

/-- One row was stored before another. -/
def EnqueuedBefore (events : List Event) (row row' : QueueMessage) : Prop :=
  ∃ before e between e' after, events = before ++ e :: (between ++ e' :: after) ∧
    e.Enqueues row ∧ e'.Enqueues row'

/-- Rows stored one after the other are ordered by the column. -/
theorem Run.enqueueOrder_lt (run : Run order events db) {row row' : QueueMessage}
    (hbefore : EnqueuedBefore events row row') : row.enqueueOrder < row'.enqueueOrder := by
  obtain ⟨before, e, between, e', after, rfl, henqueues, henqueues'⟩ := hbefore
  have hmem : e' ∈ between ++ e' :: after := by simp
  obtain ⟨-, -, hevent, -⟩ := run.split
  obtain ⟨_, _, -, -, -, hevent', -⟩ := run.cut (List.mem_append_right before
    (List.mem_cons_of_mem e hmem))
  obtain ⟨hrow, hlt⟩ := henqueues.sequence_lt hevent
  obtain ⟨hrow', -⟩ := henqueues'.sequence_lt hevent'
  have := run.sequence_le.1 e' hmem
  omega

/-- Live messages are ordered by the column as they were stored. -/
theorem Run.enqueuedBefore (run : Run order events db) {m m' : QueueMessage}
    (hm : m ∈ db.queueMessage) (hm' : m' ∈ db.queueMessage)
    (hlt : m.enqueueOrder < m'.enqueueOrder) :
    EnqueuedBefore events m.asEnqueued m'.asEnqueued := by
  obtain ⟨e, he, henqueues⟩ := run.provenance m hm
  obtain ⟨e', he', henqueues'⟩ := run.provenance m' hm'
  obtain ⟨before, after, hsplit⟩ := List.append_of_mem he
  rw [hsplit] at he'
  rcases List.mem_append.mp he' with he' | he'
  · -- the other way round the column would be, too
    obtain ⟨first, between, hbetween⟩ := List.append_of_mem he'
    have hwrong : EnqueuedBefore events m'.asEnqueued m.asEnqueued :=
      ⟨first, e', between, e, after, by rw [hsplit, hbetween]; simp, henqueues', henqueues⟩
    have hback : m'.asEnqueued.enqueueOrder < m.asEnqueued.enqueueOrder :=
      run.enqueueOrder_lt hwrong
    exact absurd (hlt.trans hback) (lt_irrefl _)
  · rcases List.mem_cons.mp he' with rfl | he'
    · obtain ⟨_, _, _, _, _, hrow⟩ := henqueues
      obtain ⟨_, _, _, _, _, hrow'⟩ := henqueues'
      have hseq : m.enqueueOrder = e'.before.enqueueOrderSequence :=
        congrArg QueueMessage.enqueueOrder hrow
      have hseq' : m'.enqueueOrder = e'.before.enqueueOrderSequence :=
        congrArg QueueMessage.enqueueOrder hrow'
      omega
    · obtain ⟨between, last, hlast⟩ := List.append_of_mem he'
      exact ⟨before, e, between, e', last, by rw [hsplit, hlast], henqueues, henqueues'⟩

/-! ## Undelivered messages -/

/-- A stored message id belongs to one row. -/
theorem Run.enqueues_unique (run : Run order events db) {e e' : Event} (he : e ∈ events)
    (he' : e' ∈ events) {row row' : QueueMessage} (henqueues : e.Enqueues row)
    (henqueues' : e'.Enqueues row') (hid : row.id = row'.id) : row = row' := by
  obtain rfl := run.fresh he he' henqueues.enqueuedId (hid ▸ henqueues'.enqueuedId)
  obtain ⟨queueId, message, ttl, hop, -, rfl⟩ := henqueues
  obtain ⟨queueId', message', ttl', hop', -, rfl⟩ := henqueues'
  rw [hop] at hop'
  injection hop' with h1 h2 h3
  rw [h1, h2, h3]

/-- A stored row is as a message that no one has touched. -/
theorem Event.Enqueues.untouched {e : Event} {row : QueueMessage} (henqueues : e.Enqueues row) :
    row.state = .ready ∧ row.receiptHandle = none ∧ row.deliveryAttempts = 0 := by
  obtain ⟨queueId, message, ttl, -, -, rfl⟩ := henqueues
  exact ⟨rfl, rfl, rfl⟩

/-- **A message that was never delivered** and has not expired is in the table as it was stored. -/
theorem Run.undelivered (run : Run order events db) {e : Event} (he : e ∈ events)
    {row : QueueMessage} (henqueues : e.Enqueues row) :
    (∃ d ∈ events, d.response.delivered = some row.id) ∨
      (∃ x ∈ events, row.expiresAt ≤ x.now) ∨ row ∈ db.queueMessage := by
  obtain ⟨hready, hnone, -⟩ := henqueues.untouched
  induction run with
  | start => simp at he
  | @step events db run c htime hfresh ih =>
    have hlast : c.event order db ∈ events ++ [c.event order db] :=
      List.mem_append_right _ (List.mem_singleton.mpr rfl)
    rcases List.mem_append.mp he with hold | hnew
    · rcases ih hold with ⟨d, hd, hdelivered⟩ | ⟨x, hx, hexpired⟩ | hlive
      · exact Or.inl ⟨d, List.mem_append_left _ hd, hdelivered⟩
      · exact Or.inr (Or.inl ⟨x, List.mem_append_left _ hx, hexpired⟩)
      by_cases hgone : ∀ m' ∈ (c.event order db).after.queueMessage, m'.id ≠ row.id
      · -- of the ways to leave, only expiry is open to a message that is still ready
        have hexit := (c.op.run_effect run.valid order c.now).1.exit run.valid hlive hgone
        generalize (c.op.run order db c.now).2 = response at hexit
        obtain ⟨now, op⟩ := c
        cases hexit with
        | acknowledged hack => simp [isAcknowledgeable, hnone] at hack
        | deadLettered hqueue hexhausted hd hstored =>
          simp [isDeadLetterCandidate, hready] at hexhausted
        | expired hexpired =>
          simp only [isExpired, decide_eq_true_eq] at hexpired
          exact Or.inr (Or.inl ⟨_, hlast, hexpired.1⟩)
      · push Not at hgone
        obtain ⟨m', hm', hid⟩ := hgone
        cases Call.origin run.valid order c hm' with
        | kept hm =>
          rw [eq_of_key_eq run.valid.messages.ids hm hlive hid] at hm'
          exact Or.inr (Or.inr hm')
        | enqueued hfresh _ => exact absurd hid.symm (hfresh row hlive)
        | leased hqueue hop hdelivered hm hcandidate hlease =>
          refine Or.inl ⟨_, hlast, hdelivered.trans ?_⟩
          rw [← hid, hlease]
          rfl
    · rw [List.mem_singleton.mp hnew] at henqueues
      obtain ⟨queueId, message, ttl, hop, hresponse, rfl⟩ := henqueues
      refine Or.inr (Or.inr ?_)
      obtain ⟨now, op⟩ := c
      have hop' : op = .enqueueMessage queueId message ttl := hop
      subst hop'
      rcases (enqueueMessage_cases db now queueId message ttl).2 with ⟨hne, -⟩ | ⟨-, happend⟩
      · exact absurd hresponse hne
      · show _ ∈ (enqueueMessage db now queueId message ttl).1.queueMessage
        rw [happend]
        exact List.mem_append_right _ (List.mem_singleton.mpr rfl)

/-! ## Deliveries in order -/

/-- No message is delivered at or after its expiry. -/
theorem Run.delivered_unexpired (run : Run order events db) {e d : Event} (he : e ∈ events)
    (hd : d ∈ events) {row : QueueMessage} (henqueues : e.Enqueues row)
    (hdelivered : d.response.delivered = some row.id) : d.now < row.expiresAt := by
  obtain ⟨queue, receiptHandle, m, -, -, hm, hid, hdeliverable, -⟩ := run.delivery hd hdelivered
  obtain ⟨before, after, rfl, hbefore, -, -, -⟩ := run.cut hd
  obtain ⟨e', he', henqueues'⟩ := hbefore.provenance m hm
  have hrow : m.asEnqueued = row :=
    run.enqueues_unique (List.mem_append_left _ he') he henqueues' henqueues hid
  rw [← hrow]
  exact hdeliverable.unexpired

/-- **No overtaking**: when a message is delivered, an earlier one of its queue and priority has
    been delivered before or has expired. -/
theorem Run.no_overtaking {before after : List Event} {d : Event}
    (run : Run order (before ++ d :: after) db) {row row' : QueueMessage}
    (hfirst : EnqueuedBefore (before ++ d :: after) row row') (hqueue : row.queueId = row'.queueId)
    (hpriority : row.priority = row'.priority) (hdelivered : d.response.delivered = some row'.id) :
    (∃ d' ∈ before, d'.response.delivered = some row.id) ∨ row.expiresAt ≤ d.now := by
  have hlt := run.enqueueOrder_lt hfirst
  obtain ⟨s, e, between, e', t, hsplit, henqueues, henqueues'⟩ := hfirst
  have hmem : e ∈ before ++ d :: after := hsplit ▸ by simp
  have hmem' : e' ∈ before ++ d :: after := hsplit ▸ by simp
  obtain ⟨hbefore, -, hevent, htime, -⟩ := run.split
  obtain ⟨queue, receiptHandle, m', -, hq, hm', hid', hdeliverable', hmin⟩ :=
    run.delivery (List.mem_append_right _ List.mem_cons_self) hdelivered
  -- the later message is live before the delivery
  obtain ⟨x, hx, hxenqueues⟩ := hbefore.provenance m' hm'
  have hrow' : m'.asEnqueued = row' :=
    run.enqueues_unique (List.mem_append_left _ hx) hmem' hxenqueues henqueues' hid'
  -- so the earlier one was stored before it, too
  have hstored : e ∈ before := by
    rcases List.mem_append.mp hmem with h | h
    · exact h
    exfalso
    have hdrawn : row'.enqueueOrder < d.before.enqueueOrderSequence :=
      hrow' ▸ hbefore.valid.drawn m' hm'
    obtain ⟨_, _, -, -, -, hevent', -⟩ := run.cut hmem
    obtain ⟨horder, -⟩ := henqueues.sequence_lt hevent'
    have hseq : d.before.enqueueOrderSequence ≤ e.before.enqueueOrderSequence := by
      rcases List.mem_cons.mp h with rfl | h
      · exact le_rfl
      · have heffect := (run.effect (List.mem_append_right before List.mem_cons_self)).2
        exact heffect.sequence_le.trans (run.sequence_le.1 e h)
    omega
  rcases hbefore.undelivered hstored henqueues with hdone | ⟨y, hy, hexpired⟩ | hlive
  · exact Or.inl hdone
  · exact Or.inr (hexpired.trans (htime y hy))
  by_contra hnot
  push Not at hnot
  obtain ⟨-, hunexpired⟩ := hnot
  obtain ⟨hready, -, hattempts⟩ := henqueues.untouched
  have hmax := (QueueRow.checked_iff.mp (hbefore.valid.queueChecked queue hq)).2.2.2.1.1
  have hdeliverable : Deliverable queue d.now row := {
    ofQueue := by rw [hqueue, ← hrow']; exact hdeliverable'.ofQueue
    unexpired := hunexpired
    attempts := by omega
    available := Or.inl hready }
  have hpriority' : m'.priority = row.priority := by rw [hpriority, ← hrow']; rfl
  have horder' : m'.enqueueOrder = row'.enqueueOrder := by rw [← hrow']; rfl
  rcases deliveryOrder_le.mp (hmin row hlive hdeliverable) with h | ⟨-, h⟩ <;> omega

/-- First deliveries within a queue and a priority happen in the order of the enqueues. -/
theorem Run.first_deliveries {before after : List Event} {d : Event}
    (run : Run order (before ++ d :: after) db) {row row' : QueueMessage}
    (hfirst : EnqueuedBefore (before ++ d :: after) row row') (hqueue : row.queueId = row'.queueId)
    (hpriority : row.priority = row'.priority) (hdelivered : d.response.delivered = some row'.id)
    (hever : ∃ x ∈ before ++ d :: after, x.response.delivered = some row.id) :
    ∃ d' ∈ before, d'.response.delivered = some row.id := by
  rcases run.no_overtaking hfirst hqueue hpriority hdelivered with h | hexpired
  · exact h
  obtain ⟨s, e, between, e', t, hsplit, henqueues, -⟩ := hfirst
  obtain ⟨x, hx, hxdelivered⟩ := hever
  have hunexpired := run.delivered_unexpired (hsplit ▸ by simp) hx henqueues hxdelivered
  obtain ⟨-, -, -, -, hfuture⟩ := run.split
  rcases List.mem_append.mp hx with hx | hx
  · exact ⟨x, hx, hxdelivered⟩
  · rcases List.mem_cons.mp hx with rfl | hx
    · omega
    · have := hfuture x hx
      omega

/-- **Delivery order.**  In any run, a dequeue on an existing queue returns a message exactly
    when the queue holds a deliverable one, and then the one with the highest priority that was
    enqueued first among those; no message is delivered while an earlier one of its queue and
    priority is undelivered and unexpired, so first deliveries come in the order of the
    enqueues; and none is delivered at or after its expiry. -/
theorem delivery_order (order : TriggerOrder) (calls : List Call) (htime : Chronological calls)
    (hfresh : FreshIds calls) :
    let events := history order .empty calls
    (∀ e ∈ events, ∀ queueId receiptHandle, e.op = .dequeueMessage queueId receiptHandle →
      ∀ queue ∈ e.before.queue, queue.id = queueId →
        (e.response.delivered.isSome ↔
          ∃ m ∈ e.before.queueMessage, Deliverable queue e.now m) ∧
        ∀ id, e.response.delivered = some id → ∃ m ∈ e.before.queueMessage, m.id = id ∧
          Deliverable queue e.now m ∧
          ∀ m' ∈ e.before.queueMessage, Deliverable queue e.now m' → m' ≠ m →
            m'.priority < m.priority ∨ (m'.priority = m.priority ∧
              EnqueuedBefore events m.asEnqueued m'.asEnqueued)) ∧
    (∀ before d after, events = before ++ d :: after → ∀ row row',
      EnqueuedBefore events row row' → row.queueId = row'.queueId →
      row.priority = row'.priority → d.response.delivered = some row'.id →
        ((∃ d' ∈ before, d'.response.delivered = some row.id) ∨ row.expiresAt ≤ d.now) ∧
        ((∃ x ∈ events, x.response.delivered = some row.id) →
          ∃ d' ∈ before, d'.response.delivered = some row.id)) ∧
    ∀ e ∈ events, ∀ row, e.Enqueues row → ∀ d ∈ events,
      d.response.delivered = some row.id → d.now < row.expiresAt := by
  intro events
  have run : Run order events (finalDatabase order .empty calls) := run_of_calls order htime hfresh
  refine ⟨fun e he queueId receiptHandle hop queue hqueue hid => ⟨?_, fun id hdelivered => ?_⟩,
    fun before d after hsplit row row' hfirst hsame hpriority hdelivered => ⟨?_, fun hever => ?_⟩,
    fun e he row henqueues d hd => run.delivered_unexpired he hd henqueues⟩
  · rw [run.dequeue_head he hop hqueue hid, Option.isSome_map, Option.isSome_iff_ne_none, ne_eq,
      deliveryCandidates, head?_orderBy_eq_none, List.filter_eq_nil_iff]
    push Not
    simp only [deliverable_iff]
  · obtain ⟨queue', receiptHandle', m, hop', hqueue', hm, hmid, hdeliverable, hmin⟩ :=
      run.delivery he hdelivered
    obtain ⟨before, after, hsplit, hbefore, -⟩ := run.cut he
    have hsame : queue' = queue := by
      rw [hop] at hop'
      injection hop' with hqid
      exact eq_of_key_eq hbefore.valid.queueIds hqueue' hqueue (hqid.symm.trans hid.symm)
    subst hsame
    refine ⟨m, hm, hmid, hdeliverable, fun m' hm' hdeliverable' hne => ?_⟩
    rcases deliveryOrder_le.mp (hmin m' hm' hdeliverable') with hlt | ⟨heq, hle⟩
    · exact Or.inl hlt
    · have hlt : m.enqueueOrder < m'.enqueueOrder := lt_of_le_of_ne hle fun h =>
        hne (eq_of_key_eq hbefore.valid.messages.orders hm' hm h.symm)
      obtain ⟨s, x, between, x', t, hevents, hx, hx'⟩ := hbefore.enqueuedBefore hm hm' hlt
      refine Or.inr ⟨heq, s, x, between, x', t ++ e :: after, ?_, hx, hx'⟩
      rw [hsplit, hevents]
      simp
  · exact (hsplit ▸ run).no_overtaking (hsplit ▸ hfirst) hsame hpriority hdelivered
  · exact (hsplit ▸ run).first_deliveries (hsplit ▸ hfirst) hsame hpriority hdelivered
      (hsplit ▸ hever)

/-- Two messages of one priority, and one dequeue. -/
def twoOrders : List Call := [
  ⟨0, .createQueue (ordersQueue 5 fiveAttempts_inRange)⟩,
  ⟨0, .enqueueMessage 1 (orderMessage 8) 60⟩,
  ⟨1, .enqueueMessage 1 (orderMessage 7) 60⟩,
  ⟨2, .dequeueMessage 1 21⟩]

/-- The last of them, a dequeue on a queue with deliverable messages, delivers one. -/
theorem delivery_order_twoOrders :
    let db := finalDatabase .deleteFirst .empty (twoOrders.take 3)
    (Call.event .deleteFirst db ⟨2, .dequeueMessage 1 21⟩).response.delivered.isSome := by
  intro db
  obtain ⟨hdequeue, -⟩ := delivery_order .deleteFirst twoOrders (by decide) (by decide)
  have hlast : Call.event .deleteFirst db ⟨2, .dequeueMessage 1 21⟩ ∈
      history .deleteFirst .empty twoOrders := .tail _ (.tail _ (.tail _ (.head _)))
  have hqueue : ⟨1, "orders", 1, 5, 604800, 0, 0⟩ ∈ db.queue := by decide +kernel
  have hcandidate : ∃ m ∈ db.queueMessage,
      isCandidate ⟨1, "orders", 1, 5, 604800, 0, 0⟩ 2 m := by decide +kernel
  obtain ⟨m, hm, hcandidate⟩ := hcandidate
  exact (hdequeue _ hlast 1 21 rfl _ hqueue rfl).1.mpr ⟨m, hm, deliverable_iff.mpr hcandidate⟩

end Retsu
