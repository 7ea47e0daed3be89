/-
  Queues are isolated from each other, and from the cleaners.

  A run with many queues does to a queue what the calls on this queue alone do to its view
  (`Shows.run`), and the collector's gauges for the queue are those of the view (`Shows.collect`).
  So two runs that agree on the calls on a queue agree on all that its users can see.
-/
import Retsu.CollectorView
import Retsu.QueueSimulation

namespace Retsu

open Relational

variable {db : Database} {v : QueueView} {queue : QueueRow} {now : Int} {order : TriggerOrder}
  {start calls : List Call}

/-! ## Runs of a view -/

/-- The calls one after the other: the view they leave, and what those on the queue answer. -/
def QueueView.runAll (v : QueueView) : List Call → QueueView × List Response
  | [] => (v, [])
  | c :: calls =>
    match v.run c.now c.op with
    | none => v.runAll calls
    | some (v', response) => ((v'.runAll calls).1, response :: (v'.runAll calls).2)

/-- The calls on one queue. -/
def callsOn (queueId : Uuid) (calls : List Call) : List Call :=
  calls.filter fun c => c.op.concerns queueId

/-- What the callers on one queue are told. -/
def responsesOn (queueId : Uuid) (events : List Event) : List Response :=
  (events.filter fun e => e.op.concerns queueId).map (·.response)

/-- Only the calls on the queue matter to its view. -/
theorem QueueView.runAll_callsOn (v : QueueView) (calls : List Call) :
    v.runAll (callsOn v.queue.id calls) = v.runAll calls := by
  induction calls generalizing v with
  | nil => rfl
  | cons c calls ih =>
    cases hrun : v.run c.now c.op with
    | none =>
      have hother : c.op.concerns v.queue.id = false := run_eq_none.mp hrun
      rw [callsOn, List.filter_cons_of_neg (by simp [hother]), runAll, hrun]
      exact ih v
    | some result =>
      obtain ⟨v', response⟩ := result
      have hon : c.op.concerns v.queue.id := concerns_of_run hrun
      have hrest := ih v'
      rw [callsOn, (run_queue hrun).1] at hrest
      rw [callsOn, List.filter_cons_of_pos (by simp [hon]), runAll, runAll, hrun]
      simp only [hrest]

theorem QueueView.runAll_queue (v : QueueView) (calls : List Call) :
    (v.runAll calls).1.queue.id = v.queue.id ∧ (v.runAll calls).1.queue.name = v.queue.name := by
  induction calls generalizing v with
  | nil => exact ⟨rfl, rfl⟩
  | cons c calls ih =>
    cases hrun : v.run c.now c.op with
    | none =>
      rw [runAll, hrun]
      exact ih v
    | some result =>
      rw [runAll, hrun]
      exact ⟨(ih _).1.trans (run_queue hrun).1, (ih _).2.trans (run_queue hrun).2⟩

/-- Fresh ids are not in the table. -/
theorem Run.id_unused {events : List Event} (run : Run order events db) {id : Uuid}
    (hfresh : ∀ e ∈ events, e.op.enqueuedId ≠ some id) : ∀ m ∈ db.queueMessage, m.id ≠ id := by
  rintro m hm rfl
  obtain ⟨e, he, henqueues⟩ := run.provenance m hm
  exact hfresh e he henqueues.enqueuedId

/-- **A run does to the queue what its view does.** -/
theorem Database.Shows.run (htime : Chronological (start ++ calls))
    (hfresh : FreshIds (start ++ calls))
    (h : ∀ now, (∀ c ∈ start, c.now ≤ now) → (finalDatabase order .empty start).Shows now v) :
    responsesOn v.queue.id (history order (finalDatabase order .empty start) calls) =
        (v.runAll calls).2 ∧
      ∀ now, (∀ c ∈ start ++ calls, c.now ≤ now) →
        (finalDatabase order .empty (start ++ calls)).Shows now (v.runAll calls).1 := by
  induction calls generalizing start v with
  | nil =>
    rw [List.append_nil]
    exact ⟨rfl, h⟩
  | cons c calls ih =>
    rw [List.append_cons] at htime hfresh ⊢
    have htime' : Chronological (start ++ [c]) := htime.mono (List.sublist_append_left _ _)
    have hfresh' : FreshIds (start ++ [c]) := hfresh.mono (List.sublist_append_left _ _)
    have run := run_of_calls order (htime'.mono (List.sublist_append_left _ _))
      (hfresh'.mono (List.sublist_append_left _ _))
    have hdb := run.settled fun e he => htime'.last _ (mem_history he)
    have hnow := h c.now htime'.last
    have hafter : finalDatabase order .empty (start ++ [c]) =
        (c.op.run order (finalDatabase order .empty start) c.now).1 := by
      rw [finalDatabase_append]
      rfl
    cases hrun : v.run c.now c.op with
    | none =>
      have hother : c.op.concerns v.queue.id = false := QueueView.run_eq_none.mp hrun
      have hshows := hnow.unnoticed hdb.valid (c.op.run_effect hdb.valid order c.now).1 hrun
      rw [← hafter] at hshows
      obtain ⟨hresponses, hfinal⟩ := ih htime hfresh fun now hle =>
        hshows.mono (hle c (by simp))
      rw [QueueView.runAll, hrun]
      refine ⟨?_, hfinal⟩
      rw [hafter] at hresponses
      rw [history, responsesOn, List.filter_cons_of_neg (by simp [Call.event, hother])]
      exact hresponses
    | some result =>
      obtain ⟨v', response⟩ := result
      have hon : c.op.concerns v.queue.id := QueueView.concerns_of_run hrun
      obtain ⟨hresponse, hshows⟩ := hnow.simulates hdb order hrun fun id hid =>
        run.id_unused (hfresh'.last id hid)
      rw [← hafter] at hshows
      obtain ⟨hresponses, hfinal⟩ := ih htime hfresh fun now hle =>
        hshows.mono (hle c (by simp))
      rw [QueueView.runAll, hrun]
      refine ⟨?_, hfinal⟩
      rw [hafter, responsesOn, (QueueView.run_queue hrun).1] at hresponses
      rw [history, responsesOn, List.filter_cons_of_pos (by simp [Call.event, hon]), List.map_cons]
      exact congrArg₂ List.cons hresponse hresponses

/-! ## Gauges -/

/-- The collected gauges of one queue: the ready and in-flight messages of each priority. -/
def gauges (queueName : String) (snapshots : List QueuePriorityStateSnapshot) :
    List (MessagePriority × Nat × Nat) :=
  (snapshots.filter fun s => s.queueName = queueName).map fun s => (s.priority, s.ready, s.inFlight)

theorem Database.Shows.ready (h : db.Shows now v) (priority : Int) :
    (readyMessages db v.queue priority now).length = (v.at now).ready priority now := by
  have hfilter := h.filter (p := fun m => m.priority = priority ∧ isCandidate v.queue now m)
    (fun m _ hm => by
      simp only [decide_eq_true_eq] at hm
      exact isCandidate_isVisible hm.2) fun _ => rfl
  rw [QueueView.ready, List.countP_eq_length_filter]
  exact (hfilter ▸ List.length_map _).symm

theorem Database.Shows.inFlight (h : db.Shows now v) (hvalid : db.Valid) (priority : Int) :
    (inFlightMessages db v.queue priority now).length = (v.at now).inFlight priority now := by
  have hfilter := h.filter (p := fun m => m.priority = priority ∧
      m.receiptHandle.any fun receiptHandle =>
        isAcknowledgeable v.queue.id m.id receiptHandle now m)
    (fun m hmem hm => by
      simp only [decide_eq_true_eq, Option.any_eq_true] at hm
      obtain ⟨-, receiptHandle, -, hack⟩ := hm
      exact isAcknowledgeable_isVisible (hvalid.messages.checked m hmem) hack) fun _ => rfl
  rw [QueueView.inFlight, List.countP_eq_length_filter]
  exact (hfilter ▸ List.length_map _).symm

/-- **The collected gauges are those of the view.** -/
theorem Database.Shows.collect (h : db.Shows now v) (hvalid : db.Valid) :
    ∃ snapshots, Retsu.collect db now = .ok snapshots ∧
      (gauges v.queue.name snapshots).Perm (v.gauges now) := by
  obtain ⟨snapshots, hcollect, hlabels, hagrees⟩ := collect_spec hvalid now
  refine ⟨snapshots, hcollect, ?_⟩
  let gauge (label : String × MessagePriority) : MessagePriority × Nat × Nat :=
    (label.2, (v.at now).ready label.2.rank now, (v.at now).inFlight label.2.rank now)
  -- every snapshot of the queue shows the counts of the view
  have hgauges : gauges v.queue.name snapshots = ((snapshots.map fun s =>
      (s.queueName, s.priority)).filter fun label => label.1 = v.queue.name).map gauge := by
    rw [gauges, List.filter_map, List.map_map]
    refine List.map_congr_left fun s hs => ?_
    obtain ⟨hs, hname⟩ := List.mem_filter.mp hs
    obtain ⟨q, hq, hagree⟩ := hagrees s hs
    have hqueue : q = v.queue := eq_of_key_eq hvalid.queueNames hq h.queue
      (hagree.name.symm.trans (by simpa using hname))
    subst hqueue
    show (s.priority, s.ready, s.inFlight) = gauge (s.queueName, s.priority)
    rw [hagree.ready, hagree.inFlight, h.ready, h.inFlight hvalid]
  have hqueue : (db.queue.flatMap fun q => [MessagePriority.high, .medium, .low].map fun priority =>
      (q.name, priority)).filter (fun label => label.1 = v.queue.name) =
        [MessagePriority.high, .medium, .low].map fun priority => (v.queue.name, priority) :=
    filter_flatMap_key hvalid.queueNames h.queue fun q _ label hlabel => by
      obtain ⟨priority, -, rfl⟩ := List.mem_map.mp hlabel
      rfl
  rw [hgauges]
  refine ((hlabels.filter _).map gauge).trans (List.Perm.of_eq ?_)
  rw [hqueue]
  rfl

/-! ## Two runs -/

/-- **Isolation of queues.**  Two runs from one state that agree on the calls on a queue, with
    their times, identifiers and configurations, answer these calls alike, whatever calls on other
    queues and whatever cleaners run in between; and whenever both have made the same calls on the
    queue, the collector shows the same ready and in-flight gauges for it. -/
theorem queue_isolation (order : TriggerOrder) {start calls calls' : List Call} {queue : QueueRow}
    (hqueue : queue ∈ (finalDatabase order .empty start).queue)
    (htime : Chronological (start ++ calls)) (htime' : Chronological (start ++ calls'))
    (hfresh : FreshIds (start ++ calls)) (hfresh' : FreshIds (start ++ calls'))
    (hsame : callsOn queue.id calls = callsOn queue.id calls') :
    let db := finalDatabase order .empty start
    responsesOn queue.id (history order db calls) =
        responsesOn queue.id (history order db calls') ∧
      ∀ done done' : List Call, done <+: calls → done' <+: calls' →
        callsOn queue.id done = callsOn queue.id done' →
        ∀ now : Int, (∀ c ∈ start ++ done ++ done', c.now ≤ now) →
          ∃ snapshots snapshots', collect (finalDatabase order db done) now = .ok snapshots ∧
            collect (finalDatabase order db done') now = .ok snapshots' ∧
            (gauges queue.name snapshots).Perm (gauges queue.name snapshots') := by
  intro db
  have hshows (now : Int) (_ : ∀ c ∈ start, c.now ≤ now) : db.Shows now (db.view queue) :=
    shows_view hqueue now
  have hview {done done' : List Call} (hcalls : callsOn queue.id done = callsOn queue.id done') :
      (db.view queue).runAll done = (db.view queue).runAll done' := by
    rw [← QueueView.runAll_callsOn, ← QueueView.runAll_callsOn _ done']
    exact congrArg _ hcalls
  have hgauges {calls done : List Call} {now : Int} (htime : Chronological (start ++ calls))
      (hfresh : FreshIds (start ++ calls)) (hdone : done <+: calls)
      (hnow : ∀ c ∈ start ++ done, c.now ≤ now) :
      ∃ snapshots, collect (finalDatabase order db done) now = .ok snapshots ∧
        (gauges queue.name snapshots).Perm (((db.view queue).runAll done).1.gauges now) := by
    have hsublist : (start ++ done).Sublist (start ++ calls) :=
      hdone.sublist.append_left start
    have hdoneShows :=
      (Database.Shows.run (htime.mono hsublist) (hfresh.mono hsublist) hshows).2 now hnow
    rw [finalDatabase_append] at hdoneShows
    have hcollect := hdoneShows.collect
      (finalDatabase_valid (finalDatabase_valid Database.empty_valid order start) order done)
    rwa [((db.view queue).runAll_queue done).2] at hcollect
  constructor
  · have hresponses := (Database.Shows.run htime hfresh hshows).1
    have hresponses' := (Database.Shows.run htime' hfresh' hshows).1
    rw [hview hsame] at hresponses
    exact hresponses.trans hresponses'.symm
  · intro done done' hdone hdone' hcalls now hnow
    obtain ⟨snapshots, hcollect, hperm⟩ := hgauges htime hfresh hdone fun c hc =>
      hnow c (List.mem_append_left _ hc)
    obtain ⟨snapshots', hcollect', hperm'⟩ := hgauges htime' hfresh' hdone' fun c hc =>
      hnow c (by
        rcases List.mem_append.mp hc with hc | hc
        · exact List.mem_append_left _ (List.mem_append_left _ hc)
        · exact List.mem_append_right _ hc)
    rw [hview hcalls] at hperm
    exact ⟨snapshots, snapshots', hcollect, hcollect', hperm.trans hperm'.symm⟩

/-- A queue beside the one for orders. -/
def invoicesQueue : Queue :=
  { ordersQueue 5 fiveAttempts_inRange with id := 2, name := ⟨"invoices", by decide⟩ }

def twoQueues : List Call := [
  ⟨0, .createQueue (ordersQueue 1 oneAttempt_inRange)⟩,
  ⟨0, .createQueue invoicesQueue⟩]

/-- An order that expires and one that is leased and acknowledged. -/
def undisturbedOrders : List Call := [
  ⟨1, .enqueueMessage 1 (orderMessage 7) 1⟩,
  ⟨2, .enqueueMessage 1 (orderMessage 8) 60⟩,
  ⟨2000000, .dequeueMessage 1 21⟩,
  ⟨2500000, .acknowledgeMessage 1 8 21⟩]

/-- The same orders among invoices and cleaners, and an attempt to acknowledge from elsewhere. -/
def disturbedOrders : List Call := [
  ⟨1, .enqueueMessage 2 (orderMessage 9) 60⟩,
  ⟨1, .enqueueMessage 1 (orderMessage 7) 1⟩,
  ⟨2, .enqueueMessage 1 (orderMessage 8) 60⟩,
  ⟨1500000, .processExpiredMessages 10⟩,
  ⟨2000000, .dequeueMessage 1 21⟩,
  ⟨2000001, .acknowledgeMessage 2 8 21⟩,
  ⟨2000002, .dequeueMessage 2 22⟩,
  ⟨2500000, .acknowledgeMessage 1 8 21⟩,
  ⟨2500001, .purgeDeadLetterMessages 0 10⟩]

/-- The orders are answered alike, and after the dequeue there is the same order in flight. -/
theorem queue_isolation_orders :
    let db := finalDatabase .deleteFirst .empty twoQueues
    responsesOn 1 (history .deleteFirst db undisturbedOrders) =
        responsesOn 1 (history .deleteFirst db disturbedOrders) ∧
      ∃ snapshots snapshots',
        collect (finalDatabase .deleteFirst db (undisturbedOrders.take 3)) 2000003 = .ok snapshots ∧
          collect (finalDatabase .deleteFirst db (disturbedOrders.take 7)) 2000003 =
            .ok snapshots' ∧
          (gauges "orders" snapshots).Perm (gauges "orders" snapshots') := by
  have hqueue : (⟨1, "orders", 1, 1, 604800, 0, 0⟩ : QueueRow) ∈
      (finalDatabase .deleteFirst .empty twoQueues).queue := by decide +kernel
  have hsame : callsOn 1 undisturbedOrders = callsOn 1 disturbedOrders := rfl
  obtain ⟨hresponses, hgauges⟩ := queue_isolation .deleteFirst hqueue (by decide) (by decide)
    (by decide) (by decide) hsame
  have hdone : undisturbedOrders.take 3 <+: undisturbedOrders := List.take_prefix 3 _
  have hdone' : disturbedOrders.take 7 <+: disturbedOrders := List.take_prefix 7 _
  exact ⟨hresponses, hgauges _ _ hdone hdone' rfl _ (by decide)⟩

end Retsu
