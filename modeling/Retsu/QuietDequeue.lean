/-
  Dequeues in a quiet time: nothing expires and no lease ends.

  Then a dequeue takes the message that it delivers from the deliverable ones and leaves the
  others as they are (`DequeueSelection.candidates`), so that dequeues one after the other
  deliver the deliverable messages in their order (`quiet_history`).
-/
import Retsu.History

namespace Retsu

open Relational

variable {db : Database} {queue : QueueRow} {since now : Int} {order : TriggerOrder}

/-! ## Quiet times -/

/-- From `since` to `now` no message of the table expires and no lease ends. -/
def Database.Quiet (db : Database) (since now : Int) : Prop :=
  ∀ m ∈ db.queueMessage, (m.expiresAt ≤ now → m.expiresAt ≤ since) ∧
    (m.state = .inFlight → m.availableAfter ≤ now → m.availableAfter ≤ since)

instance (db : Database) (since now : Int) : Decidable (db.Quiet since now) :=
  inferInstanceAs (Decidable (∀ m ∈ db.queueMessage, (m.expiresAt ≤ now → m.expiresAt ≤ since) ∧
    (m.state = .inFlight → m.availableAfter ≤ now → m.availableAfter ≤ since)))

/-- In a quiet time the same messages are deliverable. -/
theorem Database.Quiet.isCandidate_iff {later : Int} (h : db.Quiet since later)
    {m : QueueMessage} (hm : m ∈ db.queueMessage) (hsince : since ≤ now) (hnow : now ≤ later) :
    isCandidate queue now m ↔ isCandidate queue since m := by
  obtain ⟨hexpires, hlease⟩ := h m hm
  simp only [isCandidate, decide_eq_true_eq]
  refine and_congr_right fun _ => ?_
  cases hstate : m.state with
  | ready =>
    simp only [true_or, and_true]
    omega
  | inFlight =>
    have hlease := hlease hstate
    simp only [reduceCtorEq, false_or]
    omega

/-- **A dequeue takes its candidate from the deliverable messages**, and no other. -/
theorem DequeueSelection.candidates (h : db.Valid) {exhausted : List QueueMessage}
    {candidate : Option QueueMessage} (hsel : DequeueSelection db queue now exhausted candidate)
    (hsince : since ≤ now) {receiptHandle : Uuid} {m' : QueueMessage} :
    (m' ∈ dequeuedMessages receiptHandle now queue.visibilityTimeoutSeconds
          (exhausted.map (·.id)) (candidate.map (·.id)) db.queueMessage ∧
        isCandidate queue since m') ↔
      (m' ∈ db.queueMessage ∧ isCandidate queue since m') ∧ candidate ≠ some m' := by
  have hvisibility := (QueueRow.checked_iff.mp hsel.checked).2.2.1.1
  constructor
  · rintro ⟨hm', hcandidate⟩
    obtain ⟨m, hm, -, rfl⟩ := mem_dequeuedMessages.mp hm'
    split at hcandidate
    · -- the lease that the dequeue has given runs
      simp only [isCandidate, decide_eq_true_eq, QueueMessage.lease, reduceCtorEq, false_or,
        seconds] at hcandidate
      omega
    · rename_i hother
      rw [if_neg hother]
      exact ⟨⟨hm, hcandidate⟩, fun hsome => hother (by rw [hsome]; rfl)⟩
  · rintro ⟨⟨hm, hcandidate⟩, hother⟩
    refine ⟨mem_dequeuedMessages.mpr ⟨m', hm, fun hmem => ?_, ?_⟩, hcandidate⟩
    · exact not_isDeadLetterCandidate hcandidate
        (of_key_mem h.messages.ids hsel.exhausted hm hmem)
    · rw [if_neg]
      intro hsome
      obtain ⟨c, rfl, hid⟩ := Option.map_eq_some_iff.mp hsome
      exact hother (congrArg some (eq_of_key_eq h.messages.ids (hsel.candidate c rfl).1 hm hid))

/-- Deliverable messages that have been listed in the order of delivery. -/
theorem deliveryCandidates_eq (h : db.Valid) {sorted : List QueueMessage}
    (hsorted : sorted.Pairwise fun m m' => deliveryOrder m ≤ deliveryOrder m')
    (hnodup : sorted.Nodup)
    (hmem : ∀ m, m ∈ sorted ↔ m ∈ db.queueMessage ∧ isCandidate queue now m) :
    deliveryCandidates db queue now = sorted := by
  refine orderBy_eq ?_ hsorted fun a ha b hb hab => ?_
  · refine (List.perm_ext_iff_of_nodup ((List.Nodup.of_map _ h.messages.ids).filter _)
      hnodup).mpr fun m => ?_
    rw [List.mem_filter, hmem]
  · simp only [deliveryOrder, toLex_inj, Prod.mk.injEq] at hab
    exact eq_of_key_eq h.messages.orders (List.mem_filter.mp ha).1 (List.mem_filter.mp hb).1 hab.2

theorem deliveryCandidates_nodup (h : db.Valid) : (deliveryCandidates db queue now).Nodup :=
  (orderBy_perm _ _).nodup_iff.mpr ((List.Nodup.of_map _ h.messages.ids).filter _)

/-! ## One after the other -/

/-- Every dequeue on the queue will succeed, if its time is not before `since`. -/
structure Database.Dequeuable (db : Database) (queue : QueueRow) (since : Int) : Prop where
  valid : db.Valid
  queue : queue ∈ db.queue
  disjoint : ∀ m ∈ db.queueMessage, ∀ d ∈ db.queueDeadLetterMessage, d.id ≠ m.id
  timely : ∀ m ∈ db.queueMessage, m.enqueuedAt ≤ since

/-- A dequeue delivers the first deliverable message and leaves the rest. -/
theorem quiet_dequeue (h : db.Dequeuable queue since) (order : TriggerOrder) (receiptHandle : Uuid)
    (hsince : since ≤ now) (hquiet : db.Quiet since now) :
    ((Operation.dequeueMessage queue.id receiptHandle).run order db now).2.delivered =
        (deliveryCandidates db queue since).head?.map (·.id) ∧
      ((Operation.dequeueMessage queue.id receiptHandle).run order db now).1.Dequeuable queue
        since ∧
      deliveryCandidates ((Operation.dequeueMessage queue.id receiptHandle).run order db now).1
        queue since = (deliveryCandidates db queue since).tail := by
  have hsame : deliveryCandidates db queue now = deliveryCandidates db queue since := by
    unfold deliveryCandidates
    congr 1
    refine List.filter_congr fun m hm => ?_
    rw [Bool.eq_iff_iff]
    exact hquiet.isCandidate_iff hm hsince le_rfl
  have hsel := dequeueSelection h.valid h.queue now
  obtain ⟨stored, shards, outcome, hdelivers, hrun⟩ := dequeueMessage_eq h.valid order
    receiptHandle (h.valid.find_queue.mpr ⟨h.queue, rfl⟩) h.disjoint
    fun m hm => (h.timely m hm).trans hsince
  obtain ⟨heffect, hvalid⟩ := Operation.run_effect h.valid order now
    (.dequeueMessage queue.id receiptHandle)
  rw [hsame] at hdelivers hrun hsel
  have hdisjoint := heffect.disjoint h.valid h.disjoint fun id hid => by
    simp [Operation.enqueuedId] at hid
  simp only [Operation.run, hrun] at hvalid hdisjoint ⊢
  refine ⟨hdelivers.delivered, ⟨hvalid, h.queue, hdisjoint, fun m' hm' => ?_⟩, ?_⟩
  · obtain ⟨m, hm, -, rfl⟩ := mem_dequeuedMessages.mp hm'
    split <;> exact h.timely m hm
  · have hnodup : (deliveryCandidates db queue since).Nodup := deliveryCandidates_nodup h.valid
    have hsorted := orderBy_pairwise deliveryOrder
      (db.queueMessage.filter (isCandidate queue since))
    have hmem : ∀ m, m ∈ deliveryCandidates db queue since ↔
        m ∈ db.queueMessage ∧ isCandidate queue since m := fun m => by
      rw [deliveryCandidates, mem_orderBy, List.mem_filter]
    refine deliveryCandidates_eq hvalid (hsorted.sublist (List.tail_sublist _))
      ((List.tail_sublist _).nodup hnodup) fun m => ?_
    rw [hsel.candidates h.valid hsince, ← hmem]
    cases hcandidates : deliveryCandidates db queue since with
    | nil => simp
    | cons c rest =>
      rw [hcandidates, List.nodup_cons] at hnodup
      simp only [List.tail_cons, List.head?_cons, List.mem_cons, ne_eq, Option.some.injEq]
      constructor
      · rintro hm
        exact ⟨Or.inr hm, fun heq => hnodup.1 (heq ▸ hm)⟩
      · rintro ⟨rfl | hm, hne⟩
        · exact absurd rfl hne
        · exact hm

/-- **Dequeues one after the other deliver the deliverable messages in their order.** -/
theorem quiet_history (order : TriggerOrder) {calls : List Call} (h : db.Dequeuable queue since)
    (hdequeues : ∀ c ∈ calls, ∃ receiptHandle, c.op = .dequeueMessage queue.id receiptHandle)
    (hquiet : ∀ e ∈ history order db calls, since ≤ e.now ∧ e.before.Quiet since e.now) :
    (history order db calls).filterMap (·.response.delivered) =
      ((deliveryCandidates db queue since).take calls.length).map (·.id) := by
  induction calls generalizing db with
  | nil => simp [history]
  | cons c calls ih =>
    obtain ⟨receiptHandle, hop⟩ := hdequeues c List.mem_cons_self
    obtain ⟨hsince, hnow⟩ := hquiet _ List.mem_cons_self
    have hone := quiet_dequeue h order receiptHandle hsince hnow
    rw [← hop] at hone
    obtain ⟨hdelivered, hafter, hrest⟩ : (c.event order db).response.delivered = _ ∧
      (c.event order db).after.Dequeuable queue since ∧ _ := hone
    have htail := ih hafter (fun c hc => hdequeues c (List.mem_cons_of_mem _ hc))
      fun e he => hquiet e (List.mem_cons_of_mem _ he)
    rw [history, List.filterMap_cons, htail, hdelivered]
    have hrest : deliveryCandidates (c.event order db).after queue since = _ := hrest
    rw [hrest]
    cases deliveryCandidates db queue since with
    | nil => simp
    | cons m rest => simp

end Retsu
