/-
  The queue metrics as a whole: how many series they can have, and what the counters and the tables
  say of each other.

  The meter provider limits every queue instrument to a number of series for each queue that the
  configuration plans for (`observability/metrics/mod.rs`).  Past its limit an instrument would
  lump what it counts together; as long as there are no more queues than planned it never does.
-/
import Retsu.ServiceMetrics
import Retsu.CollectorView

namespace Retsu

open Relational Concurrency UseCases Program

/-! ## The view of the meter provider -/

/-- How many series an instrument may have for each queue; `none` where the view says nothing. -/
def seriesMultiplier (instrument : String) : Option Nat :=
  match instrument with
  | "queue.messages.enqueued" | "queue.messages.ready" | "queue.messages.in_flight"
  | "queue.oldest_ready_message.age" | "queue.oldest_in_flight_message.age" => some 3
  | "queue.messages.expired" => some 2
  | "queue.messages.acknowledged" | "queue.messages.dead_lettered"
  | "queue.dead_letter.messages.purged" => some 1
  | _ => none

/-- `usize::checked_mul`, with 64 bits. -/
def checkedMul (a b : Nat) : Option Nat := if a * b < 2 ^ 64 then some (a * b) else none

/-- The limit that the view gives to an instrument, if it gives any; an error is the text of the
    `expect` that fails. -/
def cardinalityLimit (maxQueues : UInt32) (instrument : String) : Option (Except String Nat) :=
  (seriesMultiplier instrument).map fun multiplier =>
    (checkedMul maxQueues.toNat multiplier).elim
      (.error "validated queue metric cardinality should fit into usize") .ok

theorem cardinalityLimit_eq {instrument : String} {multiplier : Nat} (maxQueues : UInt32)
    (h : seriesMultiplier instrument = some multiplier) (hsmall : multiplier ≤ 3) :
    cardinalityLimit maxQueues instrument = some (.ok (maxQueues.toNat * multiplier)) := by
  have hfits : maxQueues.toNat * multiplier < 2 ^ 64 := by
    have hqueues : maxQueues.toNat < 2 ^ 32 := maxQueues.toNat_lt
    calc maxQueues.toNat * multiplier ≤ 2 ^ 32 * 3 := Nat.mul_le_mul hqueues.le hsmall
      _ < 2 ^ 64 := by decide
  rw [cardinalityLimit, h, Option.map_some, checkedMul, if_pos hfits]
  rfl

/-! ## The series of a queue -/

namespace UseCases.Instrument

/-- The series that a counter can have for a queue. -/
def seriesOf (instrument : Instrument) (name : String) : List Series :=
  match instrument with
  | .messagesEnqueued => [MessagePriority.high, .medium, .low].map fun priority =>
      ⟨.messagesEnqueued, [("queue.name", name), ("message.priority", priority.asStr)]⟩
  | .messagesExpired => ["never_delivered", "previously_delivered"].map fun history =>
      ⟨.messagesExpired, [("queue.name", name), ("message.delivery_history", history)]⟩
  | instrument => [⟨instrument, [("queue.name", name)]⟩]

theorem seriesMultiplier_eq (instrument : Instrument) (name : String) :
    seriesMultiplier instrument.name = some (instrument.seriesOf name).length ∧
      (instrument.seriesOf name).length ≤ 3 := by
  cases instrument <;> exact ⟨rfl, by simp [seriesOf]⟩

theorem seriesOf_nodup (instrument : Instrument) (name : String) :
    (instrument.seriesOf name).Nodup := by
  cases instrument <;> simp [seriesOf, MessagePriority.asStr]

theorem instrument_of_mem {instrument : Instrument} {name : String} {k : Series}
    (h : k ∈ instrument.seriesOf name) : k.instrument = instrument := by
  cases instrument <;> simp [seriesOf] at h <;> rcases h with rfl | rfl | rfl <;> rfl

end UseCases.Instrument

/-- A message that is moved has a priority, and belongs to a queue. -/
structure Move.Known (queues : List QueueRow) (move : Move) : Prop where
  queue : ∃ q ∈ queues, q.id = move.header.queueId
  priority : ∃ priority : MessagePriority, move.header.priority = priority.rank

theorem Move.series_mem {queues : List QueueRow} {move : Move} (h : move.Known queues) :
    move.series queues ∈ move.instrument.seriesOf (nameIn queues move.header.queueId) := by
  obtain ⟨priority, hpriority⟩ := h.priority
  unfold Move.series
  cases move.instrument with
  | messagesEnqueued =>
    rw [hpriority, priorityLabel_rank]
    cases priority <;> simp [Instrument.seriesOf]
  | messagesExpired =>
    by_cases hnone : move.deliveryAttempts = 0 <;>
      simp [deliveryHistory, hnone, Instrument.seriesOf]
  | _ => simp [Instrument.seriesOf]

/-- The series of a move has the name of its queue. -/
theorem Move.series_mem_iff {queues : List QueueRow} {move : Move} (h : move.Known queues)
    {instrument : Instrument} {name : String} :
    move.series queues ∈ instrument.seriesOf name ↔
      move.instrument = instrument ∧ nameIn queues move.header.queueId = name := by
  constructor
  · intro hmem
    have hinstrument := Instrument.instrument_of_mem hmem
    rw [Instrument.instrument_of_mem (Move.series_mem h)] at hinstrument
    refine ⟨hinstrument, ?_⟩
    unfold Move.series at hmem
    subst hinstrument
    cases hi : move.instrument <;> simp [hi, Instrument.seriesOf] at hmem
    · rcases hmem with ⟨hname, -⟩ | ⟨hname, -⟩ | ⟨hname, -⟩ <;> exact hname
    · exact hmem
    · exact hmem
    · rcases hmem with ⟨hname, -⟩ | ⟨hname, -⟩ <;> exact hname
    · exact hmem
  · rintro ⟨rfl, rfl⟩
    exact Move.series_mem h

theorem Event.Sound.known {e : Event} (h : e.Sound) {move : Move} (hmove : move ∈ e.moves) :
    move.Known e.after.queue := by
  obtain ⟨queues, -, heffect⟩ := h.effect
  have hmessage : ∀ {instrument : Instrument} {m : QueueMessage},
      m ∈ e.before.queueMessage ∨ m ∈ e.after.queueMessage →
      (m.move instrument).Known e.after.queue := by
    intro instrument m hm
    rcases hm with hm | hm
    · obtain ⟨q, hq, hid⟩ := h.before.messages.queue m hm
      obtain ⟨q', hq', hid', -⟩ := heffect.queue_kept h.before q hq
      obtain ⟨p, -, hp⟩ := MessagePriority.exists_rank
        (QueueMessage.checked_iff.mp (h.before.messages.checked m hm)).1
      exact ⟨⟨q', hq', hid'.trans hid⟩, p, hp⟩
    · obtain ⟨p, -, hp⟩ := MessagePriority.exists_rank
        (QueueMessage.checked_iff.mp (h.after.messages.checked m hm)).1
      exact ⟨h.after.messages.queue m hm, p, hp⟩
  unfold Event.moves at hmove
  split at hmove
  · simp at hmove
  · obtain ⟨m, hm, rfl⟩ := List.mem_map.mp hmove
    exact hmessage (Or.inr (mem_removedRows.mp hm).1)
  · obtain ⟨d, hd, rfl⟩ := List.mem_map.mp hmove
    have hd := (mem_removedRows.mp hd).1
    obtain ⟨q, hq, hid⟩ := h.before.deadLetterQueue d hd
    obtain ⟨q', hq', hid', -⟩ := heffect.queue_kept h.before q hq
    obtain ⟨p, -, hp⟩ := MessagePriority.exists_rank
      (QueueDeadLetterMessage.checked_iff.mp (h.before.deadLetterChecked d hd)).1
    exact ⟨⟨q', hq', hid'.trans hid⟩, p, hp⟩
  · obtain ⟨m, hm, rfl⟩ := List.mem_map.mp hmove
    exact hmessage (Or.inl (mem_removedRows.mp hm).1)

/-! ## What is recorded -/

theorem addUnlessZero_pos {series : Series} {count : Nat} :
    ∀ x ∈ addUnlessZero series count, 0 < x.2 := by
  intro x hx
  by_cases hzero : count = 0
  · simp [addUnlessZero, hzero] at hx
  · simp only [addUnlessZero, if_neg hzero, List.mem_singleton] at hx
    rw [hx]
    exact Nat.pos_of_ne_zero hzero

/-- A task never records a count of zero. -/
theorem Task.Ends.positive {task : Task} {past : Exchanged} {ended : Outcome × List Measurement}
    (h : task.Ends past ended) : ∀ x ∈ ended.2, 0 < x.2 := by
  intro x hx
  cases h with
  | refused => simp at hx
  | @createQueue _ _ _ result => cases result <;> simp [recordedOf] at hx
  | @updateQueue _ _ _ _ result => cases result <;> simp [recordedOf] at hx
  | @enqueueMessage _ _ _ _ result =>
    cases result with
    | error => simp [recordedOf] at hx
    | ok message =>
      obtain rfl := List.mem_singleton.mp hx
      exact Nat.one_pos
  | @dequeueMessage _ _ _ result =>
    cases result with
    | error => simp [recordedOf] at hx
    | ok message => exact addUnlessZero_pos x hx
  | @acknowledgeMessage _ _ _ _ result =>
    rcases result with e | _ | message
    · simp [recordedOf] at hx
    · simp [recordedOf] at hx
    · obtain rfl := List.mem_singleton.mp hx
      exact Nat.one_pos
  | @processExpiredMessages _ _ result =>
    cases result with
    | error => simp [recordedOf] at hx
    | ok summary =>
      obtain ⟨queue, -, hx⟩ := List.mem_flatMap.mp hx
      rcases List.mem_append.mp hx with hx | hx
      · exact addUnlessZero_pos x hx
      · exact addUnlessZero_pos x hx
  | @purgeDeadLetterMessages _ _ _ result =>
    cases result with
    | error => simp [recordedOf] at hx
    | ok summary =>
      obtain ⟨queue, -, hx⟩ := List.mem_flatMap.mp hx
      exact addUnlessZero_pos x hx

/-- What has been recorded shows. -/
theorem shown_pos {recorded : List Measurement} {x : Measurement} (hx : x ∈ recorded)
    (hpos : 0 < x.2) : 0 < shown recorded x.1 := by
  have hmem : x.2 ∈ (recorded.filter fun measurement => measurement.1 = x.1).map Prod.snd :=
    List.mem_map_of_mem (List.mem_filter.mpr ⟨hx, by simp⟩)
  exact Nat.lt_of_lt_of_le hpos (List.le_sum_of_mem hmem)

namespace Service

variable {order : TriggerOrder} {s s' : Service}

/-- What a step adds to the measurements is what a thread has recorded at its end. -/
theorem Step.recorded {a : ServiceAction} (hstep : Step order s a s') :
    s'.recorded = s.recorded ∨ ∃ id thread, s'.threads id = some thread ∧
      s'.recorded = s.recorded ++ recordedBy thread.program := by
  cases hstep with
  | system | send | drop => exact Or.inl rfl
  | @spawn id task => exact Or.inr ⟨id, _, if_pos rfl, rfl⟩
  | @readName id | @readDetails id | @reply id | @fail id =>
    exact Or.inr ⟨id, _, if_pos rfl, rfl⟩

theorem Reachable.recorded_pos (h : s.Reachable order) : ∀ x ∈ s.recorded, 0 < x.2 := by
  refine h.invariant (I := fun s => ∀ x ∈ s.recorded, 0 < x.2) (by simp [initial])
    fun s a s' hrun ih _ hstep x hx => ?_
  have hstep := step_cases hstep
  have hinv' := (Reachable.inv hrun).step hstep
  rcases hstep.recorded with hsame | ⟨id, thread, hthread, hmore⟩
  · exact ih x (hsame ▸ hx)
  · rw [hmore] at hx
    rcases List.mem_append.mp hx with hx | hx
    · exact ih x hx
    · have hends := (hinv'.goes id thread hthread).conforms thread.task.conforms
      cases hprogram : thread.program with
      | await q next =>
        rw [hprogram] at hx
        simp [recordedBy] at hx
      | done ended =>
        rw [hprogram] at hx hends
        exact Task.Ends.positive hends x hx

/-- What has been recorded has been moved. -/
theorem Reachable.recorded_moved (h : s.Reachable order) {x : Measurement} (hx : x ∈ s.recorded) :
    ∃ e ∈ s.system.log, ∃ move ∈ e.moves, move.series e.after.queue = x.1 := by
  have hshown := shown_pos hx (h.recorded_pos x hx)
  rw [h.shown_eq x.1] at hshown
  obtain ⟨n, hn, hpos⟩ : ∃ n ∈ (s.commits.filter fun c => c.1 ∈ s.reported).map
      fun c => c.2.counts x.1, n ≠ 0 := by
    by_contra hnone
    push Not at hnone
    rw [List.sum_eq_zero hnone] at hshown
    exact absurd hshown (Nat.lt_irrefl 0)
  obtain ⟨c, hc, rfl⟩ := List.mem_map.mp hn
  obtain ⟨move, hmove, hseries⟩ := List.countP_pos_iff.mp (Nat.pos_of_ne_zero hpos)
  refine ⟨c.2, ?_, move, hmove, of_decide_eq_true hseries⟩
  rw [← h.inv.log]
  exact List.mem_map_of_mem (List.mem_of_mem_filter hc)

/-- **A series that has been recorded is one of the series of a queue.** -/
theorem Reachable.recorded_series (h : s.Reachable order) {x : Measurement}
    (hx : x ∈ s.recorded) : ∃ q ∈ s.system.db.queue, x.1 ∈ x.1.instrument.seriesOf q.name := by
  obtain ⟨e, he, move, hmove, hseries⟩ := h.recorded_moved hx
  have htrace := Trace.of_log h.inv.reachable
  have hsound := htrace.sound he
  have hknown := hsound.known hmove
  obtain ⟨q, hq, hid⟩ := hknown.queue
  obtain ⟨q', hq', -, hname⟩ := htrace.names he q hq
  have hmem := Move.series_mem hknown
  rw [← hid, nameIn_eq hsound.after.queueIds hq, ← hname, hseries] at hmem
  refine ⟨q', hq', ?_⟩
  rw [Instrument.instrument_of_mem hmem]
  exact hmem

end Service

/-! ## How many series there are -/

/-- `QueuePriorityStateMetric::attributes`. -/
def QueuePriorityStateSnapshot.attributes (state : QueuePriorityStateSnapshot) :
    List (String × String) :=
  [("queue.name", state.queueName), ("message.priority", state.priority.asStr)]

/-- The gauges of `QueueStateMetrics` that have a series for each queue and priority. -/
def stateGauges : List String := [
  "queue.messages.ready", "queue.messages.in_flight", "queue.oldest_ready_message.age",
  "queue.oldest_in_flight_message.age"]

/-- A collector has read the table at some time, and its snapshot has these attributes. -/
def Service.Observed (s : Service) (attributes : List (String × String)) : Prop :=
  ∃ db ∈ s.past, ∃ now snapshots, collect db now = .ok snapshots ∧
    ∃ state ∈ snapshots, state.attributes = attributes

/-- The series of a counter that all processes have recorded together, once each. -/
def Service.seriesRecorded (s : Service) (instrument : Instrument) : List Series :=
  ((s.recorded.map Prod.fst).filter fun k => k.instrument = instrument).dedup

/-- Values that each come from one of the queues. -/
theorem length_le_of_queues {α : Type} {queues : List QueueRow} {values : List α}
    {f : QueueRow → List α} {n : Nat} (hnodup : values.Nodup)
    (hvalues : ∀ a ∈ values, ∃ q ∈ queues, a ∈ f q)
    (hlength : ∀ q ∈ queues, (f q).length = n) : values.length ≤ queues.length * n := by
  have hsub : values ⊆ queues.flatMap f := fun a ha => List.mem_flatMap.mpr (hvalues a ha)
  calc values.length ≤ (queues.flatMap f).length := hnodup.length_le_of_subset hsub
    _ = queues.length * n := by
      rw [List.length_flatMap, List.map_congr_left hlength, List.map_const', List.sum_replicate,
        smul_eq_mul]

theorem Service.Reachable.seriesRecorded_length {order : TriggerOrder} {s : Service}
    (h : s.Reachable order) {instrument : Instrument} {multiplier : Nat}
    (hmultiplier : seriesMultiplier instrument.name = some multiplier) :
    (s.seriesRecorded instrument).length ≤ s.system.db.queue.length * multiplier := by
  refine length_le_of_queues (List.nodup_dedup _) (fun k hk => ?_)
    (f := fun q => instrument.seriesOf q.name) fun q _ => ?_
  · obtain ⟨hk, hinstrument⟩ := List.mem_filter.mp (List.mem_dedup.mp hk)
    obtain ⟨x, hx, rfl⟩ := List.mem_map.mp hk
    rw [← of_decide_eq_true hinstrument]
    exact h.recorded_series hx
  · have heq := hmultiplier.symm.trans (instrument.seriesMultiplier_eq q.name).1
    exact (Option.some.inj heq).symm

theorem Service.Inv.observed_length {order : TriggerOrder} {s : Service} (h : s.Inv order)
    {observed : List (List (String × String))} (hobserved : ∀ a ∈ observed, s.Observed a) :
    observed.dedup.length ≤ s.system.db.queue.length * 3 := by
  refine length_le_of_queues (List.nodup_dedup _) (fun a ha => ?_)
    (f := fun q => [MessagePriority.high, .medium, .low].map fun priority =>
      [("queue.name", q.name), ("message.priority", priority.asStr)]) fun q _ => rfl
  obtain ⟨db, hdb, now, snapshots, hcollect, state, hstate, rfl⟩ :=
    hobserved a (List.mem_dedup.mp ha)
  obtain ⟨hvalid, hkept⟩ := h.past db hdb
  obtain ⟨snapshots', hcollect', -, hagrees⟩ := collect_spec hvalid now
  obtain rfl := Except.ok.inj (hcollect.symm.trans hcollect')
  obtain ⟨queue, hqueue, hagree⟩ := hagrees state hstate
  obtain ⟨q, hq, -, hname⟩ := hkept queue hqueue
  refine ⟨q, hq, List.mem_map.mpr ⟨state.priority, by cases state.priority <;> simp, ?_⟩⟩
  rw [QueuePriorityStateSnapshot.attributes, hagree.name, hname]

/-- **No queue metric overflows.**  As long as there are no more queues than the configuration
    plans for, and whatever requests, cleaners, failures and lost responses there have been, the
    view sets a limit to each of the queue instruments, and neither the series of a counter nor
    what the gauges have shown of all snapshots, taken together, are more than the limit. -/
theorem series_within_limit {order : TriggerOrder} {s : Service} (h : s.Reachable order)
    {maxQueues : UInt32} (hqueues : s.system.db.queue.length ≤ maxQueues.toNat) :
    (∀ instrument : Instrument, ∃ limit,
      cardinalityLimit maxQueues instrument.name = some (.ok limit) ∧
      (s.seriesRecorded instrument).length ≤ limit) ∧
    ∀ gauge ∈ stateGauges, ∃ limit, cardinalityLimit maxQueues gauge = some (.ok limit) ∧
      ∀ observed : List (List (String × String)), (∀ a ∈ observed, s.Observed a) →
        observed.dedup.length ≤ limit := by
  constructor
  · intro instrument
    obtain ⟨hmultiplier, hsmall⟩ := instrument.seriesMultiplier_eq ""
    refine ⟨_, cardinalityLimit_eq maxQueues hmultiplier hsmall, ?_⟩
    exact (h.seriesRecorded_length hmultiplier).trans (Nat.mul_le_mul_right _ hqueues)
  · intro gauge hgauge
    have hmultiplier : seriesMultiplier gauge = some 3 := by
      simp only [stateGauges, List.mem_cons, List.not_mem_nil, or_false] at hgauge
      rcases hgauge with rfl | rfl | rfl | rfl <;> rfl
    refine ⟨_, cardinalityLimit_eq maxQueues hmultiplier Nat.le.refl, fun observed hobserved => ?_⟩
    exact (h.inv.observed_length hobserved).trans (Nat.mul_le_mul_right 3 hqueues)

/-- Two messages are enqueued, and one of them is delivered and acknowledged. -/
def reportedOrders : List ServiceAction :=
  [.spawn 1 (.request (.createQueue (.ok ⟨"orders", none, none, none⟩)) 1)] ++
    committed 1 1 [] 0 ++ [.reply 1] ++
    [.spawn 2 (.request (.enqueueMessage (.ok ⟨1⟩) (.ok ⟨"first", "HIGH", none⟩)) 7), .read 2 0] ++
    committed 2 2 [] 1 ++ [.reply 2] ++
    [.spawn 3 (.request (.enqueueMessage (.ok ⟨1⟩) (.ok ⟨"second", "LOW", none⟩)) 8), .read 3 0] ++
    committed 3 3 [] 1 ++ [.reply 3] ++
    [.spawn 4 (.request (.dequeueMessage (.ok ⟨1⟩)) 100)] ++
    committed 4 4 [.lease] 1 ++ [.reply 4] ++
    [.spawn 5 (.request (.acknowledgeMessage (.ok ⟨1, 7⟩) (.ok ⟨100⟩)) 0), .read 5 0] ++
    committed 5 5 [.delete] 1 ++ [.reply 5]

/-- One queue, for which the configuration has planned, with three measurements. -/
theorem series_within_limit_reportedOrders : ∃ s : Service,
    s.recorded.length = 3 ∧ s.system.db.queue.length = 1 ∧
    ∃ limit, cardinalityLimit 1 "queue.messages.enqueued" = some (.ok limit) ∧
      (s.seriesRecorded .messagesEnqueued).length ≤ limit := by
  have hrun : (runAllowed (Service.step .deleteFirst) anyAction Service.initial reportedOrders).map
      (fun s => (s.recorded.length, s.system.db.queue.length)) = some (3, 1) := by decide +kernel
  obtain ⟨s, hs, hseen⟩ := Option.map_eq_some_iff.mp hrun
  obtain ⟨hrecorded, hqueues⟩ := Prod.mk.inj hseen
  have hlimits := @series_within_limit _ _ (execution_of_runAllowed hs) 1 (hqueues ▸ Nat.le.refl)
  exact ⟨s, hrecorded, hqueues, hlimits.1 .messagesEnqueued⟩

/-! ## What the counters and the tables say of each other -/

/-- What the series of a queue show of a counter. -/
def Service.shownOf (s : Service) (instrument : Instrument) (name : String) : Nat :=
  ((instrument.seriesOf name).map (shown s.recorded)).sum

/-- What they miss: the moves of the transactions whose responses have not been taken. -/
def Service.missedOf (s : Service) (instrument : Instrument) (name : String) : Nat :=
  ((instrument.seriesOf name).map fun k =>
    ((s.commits.filter fun c => c.1 ∉ s.reported).map fun c => c.2.counts k).sum).sum

/-- What counters count of a queue balances with what its tables hold. -/
structure Service.Balances (s : Service) (q : QueueRow) (counted : Instrument → Nat) : Prop where
  messages : counted .messagesEnqueued =
    counted .messagesAcknowledged + counted .messagesDeadLettered + counted .messagesExpired +
      s.system.db.queueMessage.countP fun m => m.queueId = q.id
  archive : counted .messagesDeadLettered =
    counted .messagesPurged + s.system.db.queueDeadLetterMessage.countP fun d => d.queueId = q.id

/-- The counts of several values add up to the count of any of them. -/
theorem sum_countP_eq {α β : Type} [DecidableEq β] (rows : List α) (f : α → β) {keys : List β}
    (hnodup : keys.Nodup) :
    (keys.map fun k => rows.countP fun a => f a = k).sum = rows.countP fun a => f a ∈ keys := by
  induction keys with
  | nil => simp
  | cons key keys ih =>
    obtain ⟨hkey, hnodup⟩ := List.nodup_cons.mp hnodup
    rw [List.map_cons, List.sum_cons, ih hnodup]
    clear ih
    induction rows with
    | nil => rfl
    | cons a rows ih =>
      have hne : f a = key → f a ∉ keys := fun heq hmem => hkey (heq ▸ hmem)
      rw [List.countP_cons, List.countP_cons, List.countP_cons, ← ih]
      by_cases heq : f a = key
      · simp [heq, hkey]
        omega
      · by_cases hmem : f a ∈ keys <;> simp [heq, hmem]; omega

/-- What an event adds to the series of a queue are the messages of the queue that it moves. -/
theorem Event.Sound.counts_queue {e : Event} (h : e.Sound) {queues : List QueueRow}
    (hids : (queues.map (·.id)).Nodup) (hnames : (queues.map (·.name)).Nodup)
    (hkept : ∀ q ∈ e.after.queue, ∃ q' ∈ queues, q'.id = q.id ∧ q'.name = q.name)
    {q : QueueRow} (hq : q ∈ queues) (instrument : Instrument) :
    ((instrument.seriesOf q.name).map e.counts).sum =
      moved [e] instrument fun header => header.queueId = q.id := by
  rw [moved_singleton]
  refine (sum_countP_eq e.moves (fun move => move.series e.after.queue)
    (instrument.seriesOf_nodup q.name)).trans (List.countP_congr fun move hmove => ?_)
  have hknown := h.known hmove
  obtain ⟨row, hrow, hid⟩ := hknown.queue
  obtain ⟨q', hq', hid', hname'⟩ := hkept row hrow
  have hname : nameIn e.after.queue move.header.queueId = q'.name := by
    rw [← hid, nameIn_eq h.after.queueIds hrow, hname']
  rw [decide_eq_true_eq, Move.series_mem_iff hknown, hname, Bool.and_eq_true, decide_eq_true_eq,
    decide_eq_true_eq, ← hid, ← hid']
  refine and_congr_right fun _ => ⟨fun heq => ?_, fun heq => ?_⟩
  · rw [eq_of_key_eq hnames hq' hq heq]
  · rw [eq_of_key_eq hids hq' hq heq]

/-- **What a queue's counters show, and what they miss, is what has been moved of it.** -/
theorem Service.Reachable.shown_add_missed {order : TriggerOrder} {s : Service}
    (h : s.Reachable order) {q : QueueRow} (hq : q ∈ s.system.db.queue) (instrument : Instrument) :
    s.shownOf instrument q.name + s.missedOf instrument q.name =
      moved s.system.log instrument fun header => header.queueId = q.id := by
  have htrace := Trace.of_log h.inv.reachable
  have hvalid := htrace.valid
  calc s.shownOf instrument q.name + s.missedOf instrument q.name
      = ((instrument.seriesOf q.name).map fun k =>
          (s.system.log.map fun e => e.counts k).sum).sum := by
        rw [shownOf, missedOf, ← List.sum_map_add]
        refine congrArg List.sum (List.map_congr_left fun k _ => ?_)
        rw [h.shown_eq k, ← h.inv.log]
        exact sum_taken_add_rest s.commits s.reported fun e => e.counts k
    _ = (s.system.log.map fun e => ((instrument.seriesOf q.name).map e.counts).sum).sum :=
        Multiset.sum_map_sum_map (instrument.seriesOf q.name : Multiset Series)
          (s.system.log : Multiset Event)
    _ = (s.system.log.map fun e =>
          moved [e] instrument fun header => header.queueId = q.id).sum := by
        refine congrArg List.sum (List.map_congr_left fun e he => ?_)
        exact (htrace.sound he).counts_queue hvalid.queueIds hvalid.queueNames
          (htrace.names he) hq instrument
    _ = moved s.system.log instrument fun header => header.queueId = q.id := by
        rw [moved, List.countP_flatMap]
        refine congrArg List.sum (List.map_congr_left fun e _ => ?_)
        rw [moved_singleton]
        rfl

/-- **The dashboard balances.**  In every interleaving of requests, cleaners and failures, and for
    every queue: the messages that the counters show or miss as enqueued are those that they show or
    miss as acknowledged, dead-lettered and expired, and those that the queue holds; likewise for
    the archive.  When every response has been taken, what the counters show balances alone. -/
theorem dashboard_balances {order : TriggerOrder} {s : Service} (h : s.Reachable order)
    {q : QueueRow} (hq : q ∈ s.system.db.queue) :
    s.Balances q (fun instrument =>
      s.shownOf instrument q.name + s.missedOf instrument q.name) ∧
    ((∀ c ∈ s.commits, c.1 ∈ s.reported) →
      s.Balances q fun instrument => s.shownOf instrument q.name) := by
  have hbalanced := (Trace.of_log h.inv.reachable).balanced fun header => header.queueId = q.id
  have hmoved := h.shown_add_missed hq
  have hwhole : s.Balances q fun instrument =>
      s.shownOf instrument q.name + s.missedOf instrument q.name := by
    constructor
    · simp only [hmoved]
      exact hbalanced.messages
    · simp only [hmoved]
      exact hbalanced.archive
  refine ⟨hwhole, fun hall => ?_⟩
  have hnone : s.commits.filter (fun c => c.1 ∉ s.reported) = [] :=
    List.filter_eq_nil_iff.mpr fun c hc => by simpa using hall c hc
  have hmissed : ∀ instrument, s.missedOf instrument q.name = 0 := by
    intro instrument
    simp only [Service.missedOf, hnone, List.map_nil, List.sum_nil]
    simp
  simpa only [hmissed, Nat.add_zero] using hwhole

/-- The counters, in the order of a message's life. -/
def instruments : List Instrument := [
  .messagesEnqueued, .messagesAcknowledged, .messagesDeadLettered, .messagesExpired, .messagesPurged]

/-- What has been shown, what is there, and whether all responses have been taken. -/
def Service.overview (s : Service) (name : String) : List Nat × List String × Nat × Bool :=
  (instruments.map fun instrument => s.shownOf instrument name, s.system.db.queue.map (·.name),
    s.system.db.queueMessage.length, s.commits.all fun c => c.1 ∈ s.reported)

/-- Two messages have been enqueued, one has been acknowledged and one is there. -/
theorem dashboard_balances_reportedOrders : ∃ s : Service, ∃ q ∈ s.system.db.queue,
    s.shownOf .messagesEnqueued q.name = 2 ∧ s.shownOf .messagesAcknowledged q.name = 1 ∧
    s.system.db.queueMessage.length = 1 ∧
    s.Balances q fun instrument => s.shownOf instrument q.name := by
  have hrun : (runAllowed (Service.step .deleteFirst) anyAction Service.initial reportedOrders).map
      (·.overview "orders") = some ([2, 1, 0, 0, 0], ["orders"], 1, true) := by decide +kernel
  obtain ⟨s, hs, hseen⟩ := Option.map_eq_some_iff.mp hrun
  simp only [Service.overview, instruments, List.map_cons, List.map_nil, Prod.mk.injEq,
    List.cons.injEq] at hseen
  obtain ⟨⟨henqueued, hacknowledged, -⟩, hnames, hlive, hreported⟩ := hseen
  obtain ⟨q, hq, hname⟩ := List.mem_map.mp (hnames ▸ List.mem_cons_self : "orders" ∈ _)
  refine ⟨s, q, hq, hname ▸ henqueued, hname ▸ hacknowledged, hlive, ?_⟩
  exact (dashboard_balances (execution_of_runAllowed hs) hq).2 (by simpa using hreported)

end Retsu
