/-
  Concurrent dequeues on one queue, in a quiet time.

  Between the dequeues of the window nothing else happens and nobody aborts.  A message is
  claimed when a dequeue has picked it for its lease, and stays so: the dequeue holds the lock
  until it commits, and then the lease runs.  Every dequeue passes over claimed messages only,
  so the claimed messages are always the first of the deliverable ones.
-/
import Retsu.Concurrency.SkipLocked
import Retsu.DequeueConstraints
import Retsu.QuietDequeue

namespace Retsu

open Relational Concurrency

variable {order : TriggerOrder} {s₀ s s' : System} {queue : QueueRow} {events : List Event}
  {tid : Nat} {t : Txn}

/-! ## The window -/

def Operation.dequeuesFrom (queueId : Uuid) : Operation → Bool
  | dequeueMessage id _ => id = queueId
  | _ => false

theorem Operation.dequeuesFrom_iff {queueId : Uuid} {op : Operation} :
    op.dequeuesFrom queueId ↔ ∃ receiptHandle, op = .dequeueMessage queueId receiptHandle := by
  cases op with
  | dequeueMessage id receiptHandle => simp [dequeuesFrom]
  | _ => simp [dequeuesFrom]

/-- Only dequeues on the queue start, nobody aborts, and the time is quiet. -/
def DequeuesOnly (queueId : Uuid) (since : Int) (s : System) (a : Action) : Prop :=
  s.db.Quiet since s.clock ∧
    match a with
    | .start _ op => op.dequeuesFrom queueId
    | .abort _ => False
    | _ => True

instance (queueId : Uuid) (since : Int) (s : System) (a : Action) :
    Decidable (DequeuesOnly queueId since s a) := by
  unfold DequeuesOnly
  cases a <;> exact inferInstance

/-- No transaction is going on. -/
def System.Quiescent (s : System) : Prop :=
  ∀ tid t, s.txns tid = some t → t.phase.active = false

/-- The messages that the queue can deliver, in the order of delivery. -/
def System.deliverable (s : System) (queue : QueueRow) : List QueueMessage :=
  deliveryCandidates s.db queue s.clock

/-- What has been delivered. -/
def deliveredIds (events : List Event) : List Uuid := events.filterMap (·.response.delivered)

theorem System.mem_deliverable {m : QueueMessage} :
    m ∈ s.deliverable queue ↔ m ∈ s.db.queueMessage ∧ isCandidate queue s.clock m := by
  rw [deliverable, deliveryCandidates, mem_orderBy, List.mem_filter]

theorem System.deliverable_ids_nodup (h : s.db.Valid) :
    ((s.deliverable queue).map (·.id)).Nodup :=
  ((orderBy_perm _ _).map _).nodup_iff.mpr ((List.filter_sublist.map _).nodup h.messages.ids)

/-! ## Claims -/

/-- The message has been delivered, or picked for a lease by a dequeue that is going on. -/
def System.Claimed (s : System) (events : List Event) (id : Uuid) : Prop :=
  id ∈ deliveredIds events ∨
    ∃ tid t, s.txns tid = some t ∧ t.phase.active ∧ id ∈ (t.scan .lease).picked

/-- A dequeue of the window. -/
structure Txn.InWindow (s₀ : System) (queue : QueueRow) (claimed : Uuid → Prop) (t : Txn) :
    Prop where
  op : t.op.dequeuesFrom queue.id
  now : s₀.clock ≤ t.now
  idle : t.phase = .started → (t.scan .lease).picked = []
  target : t.phase ≠ .started → t.queue = some queue
  limit : t.phase ≠ .started → (t.scan .lease).WellFormed 1
  covers : t.phase ≠ .started →
    (t.scan .lease).Covers ((s₀.deliverable queue).map (·.id)) claimed
  deletes : ∀ m ∈ s₀.deliverable queue, m.id ∉ (t.scan .delete).pending
  ended : t.phase = .counting → (t.scan .lease).next = none

/-- The state of the system after the events of the window. -/
structure System.Window (s s₀ : System) (queue : QueueRow) (events : List Event) : Prop where
  log : s.log = s₀.log ++ events
  clock : s₀.clock ≤ s.clock
  queues : s.db.queue = s₀.db.queue
  enqueuedAt : ∀ m ∈ s.db.queueMessage, m.enqueuedAt ≤ s₀.clock
  /-- What was deliverable and has not been delivered still is, and nothing else. -/
  candidates : ∀ m, m ∈ s.db.queueMessage ∧ isCandidate queue s₀.clock m ↔
    m ∈ s₀.deliverable queue ∧ m.id ∉ deliveredIds events
  leased : ∀ m ∈ s.db.queueMessage, m.id ∈ deliveredIds events →
    m.state = .inFlight ∧ s₀.clock < m.availableAfter
  txn : ∀ tid t, s.txns tid = some t → t.phase.active →
    t.InWindow s₀ queue (s.Claimed events)
  locked : ∀ m ∈ s₀.deliverable queue, ∀ tid, s.locks (.message m.id) = some tid →
    s.Claimed events m.id
  ordered : ClaimedInOrder ((s₀.deliverable queue).map (·.id)) (s.Claimed events)
  nodup : (deliveredIds events).Nodup
  among : ∀ id ∈ deliveredIds events, id ∈ (s₀.deliverable queue).map (·.id)
  empty : ∀ e ∈ events, e.response.delivered = none → ∀ m ∈ s₀.deliverable queue,
    s.Claimed events m.id
  succeeded : ∀ e ∈ events, e.op.dequeuesFrom queue.id ∧
    ∃ outcome, e.response = .dequeueMessage outcome

theorem Txn.InWindow.mono {claimed claimed' : Uuid → Prop} (h : t.InWindow s₀ queue claimed)
    (hmono : ∀ id, claimed id → claimed' id) : t.InWindow s₀ queue claimed' where
  op := h.op
  now := h.now
  idle := h.idle
  target := h.target
  limit := h.limit
  covers hphase := (h.covers hphase).mono hmono
  deletes := h.deletes
  ended := h.ended

theorem Txn.InWindow.isPurge {claimed : Uuid → Prop} (h : t.InWindow s₀ queue claimed) :
    t.op.isPurge = false := by
  obtain ⟨receiptHandle, hop⟩ := Operation.dequeuesFrom_iff.mp h.op
  rw [hop]
  rfl

theorem Txn.InWindow.wants {claimed : Uuid → Prop} (h : t.InWindow s₀ queue claimed)
    (hphase : t.phase ≠ .started) (m : QueueMessage) :
    t.wants .lease m = isCandidate queue t.now m := by
  obtain ⟨receiptHandle, hop⟩ := Operation.dequeuesFrom_iff.mp h.op
  simp only [Txn.wants, hop, h.target hphase, Option.any_some]

/-- The visit of a row that is to be dead-lettered. -/
theorem Txn.InWindow.visitDelete {claimed : Uuid → Prop} (h : t.InWindow s₀ queue claimed)
    (hphase : t.phase = .selecting) {scan : Scan Uuid}
    (htail : scan.pending = (t.scan .delete).pending.tail) :
    (t.setScan .delete scan).InWindow s₀ queue claimed where
  op := h.op
  now := h.now
  idle := h.idle
  target := h.target
  limit := h.limit
  covers := h.covers
  deletes m hm hmem := h.deletes m hm (List.mem_of_mem_tail (htail ▸ hmem))
  ended hcounting := absurd (hphase.symm.trans hcounting) (by simp)

/-- The visit of a row that is to be leased. -/
theorem Txn.InWindow.visitLease {claimed : Uuid → Prop} (h : t.InWindow s₀ queue claimed)
    (hphase : t.phase = .selecting) {id : Uuid} (hnext : (t.scan .lease).next = some id)
    (hclaimed : claimed id) {scan : Scan Uuid}
    (htail : scan.pending = (t.scan .lease).pending.tail) (hlimit : scan.WellFormed 1) :
    (t.setScan .lease scan).InWindow s₀ queue claimed where
  op := h.op
  now := h.now
  idle hstarted := absurd (hphase.symm.trans hstarted) (by simp)
  target := h.target
  limit _ := hlimit
  covers hstarted := (h.covers hstarted).tail hnext hclaimed htail
  deletes := h.deletes
  ended hcounting := absurd (hphase.symm.trans hcounting) (by simp)

section Quiet

variable (h : s.Window s₀ queue events) (hinv : s.Inv) (hquiet : s.db.Quiet s₀.clock s.clock)

include h hinv

/-- What was deliverable and has not been delivered is in the table. -/
theorem System.Window.live {m : QueueMessage} (hm : m ∈ s₀.deliverable queue)
    (hnew : m.id ∉ deliveredIds events) {m' : QueueMessage} (hm' : m' ∈ s.db.queueMessage)
    (hid : m'.id = m.id) : m' = m ∧ isCandidate queue s₀.clock m := by
  obtain ⟨hlive, hcandidate⟩ := (h.candidates m).mpr ⟨hm, hnew⟩
  exact ⟨eq_of_key_eq hinv.valid.messages.ids hm' hlive hid, hcandidate⟩

include hquiet

/-- A message that was deliverable is not dead-lettered. -/
theorem System.Window.not_exhausted {now : Int} (hnow : now ≤ s.clock) {m m' : QueueMessage}
    (hm : m ∈ s₀.deliverable queue) (hm' : m' ∈ s.db.queueMessage) (hid : m'.id = m.id) :
    ¬isDeadLetterCandidate queue now m' := by
  intro hexhausted
  simp only [isDeadLetterCandidate, decide_eq_true_eq] at hexhausted
  by_cases hnew : m.id ∈ deliveredIds events
  · obtain ⟨hstate, hlease⟩ := h.leased m' hm' (hid ▸ hnew)
    have := (hquiet m' hm').2 hstate
    omega
  · obtain ⟨rfl, hcandidate⟩ := h.live hinv hm hnew hm' hid
    simp only [isCandidate, decide_eq_true_eq] at hcandidate
    omega

/-- A dequeue that does not want a row which was deliverable finds it delivered. -/
theorem System.Window.delivered_of_unwanted (ht : s.txns tid = some t) (hactive : t.phase.active)
    (hphase : t.phase ≠ .started) {m : QueueMessage} (hm : m ∈ s₀.deliverable queue)
    (hrecheck : t.recheck s.db .lease m.id ≠ some true) : m.id ∈ deliveredIds events := by
  have hwindow := h.txn tid t ht hactive
  by_contra hnew
  obtain ⟨hlive, hcandidate⟩ := (h.candidates m).mpr ⟨hm, hnew⟩
  refine hrecheck ((Txn.recheck_message hinv.valid hwindow.isPurge).mpr ⟨m, hlive, rfl, ?_⟩)
  rw [hwindow.wants hphase]
  exact (hquiet.isCandidate_iff hlive hwindow.now (hinv.txn tid t ht hactive).now_le).mpr hcandidate

/-- What a snapshot selects for the lease: the deliverable messages that are left. -/
theorem System.Window.deliveryCandidates_eq {now : Int} (hsince : s₀.clock ≤ now)
    (hnow : now ≤ s.clock) (hvalid : s₀.db.Valid) :
    deliveryCandidates s.db queue now =
      (s₀.deliverable queue).filter fun m => m.id ∉ deliveredIds events := by
  refine Retsu.deliveryCandidates_eq hinv.valid ((orderBy_pairwise _ _).sublist List.filter_sublist)
    ((deliveryCandidates_nodup hvalid).filter _) fun m => ?_
  rw [List.mem_filter, decide_eq_true_eq, ← h.candidates m]
  refine and_congr_right fun hm => ?_
  exact (hquiet.isCandidate_iff hm hsince hnow).symm

end Quiet

/-! ## The steps of the window -/

/-- One transaction goes on and may claim messages; no committed row shows it. -/
theorem System.Window.advance (h : s.Window s₀ queue events) {u : Txn} (new : List Uuid)
    (htxns : s'.txns = (s.setTxn tid u).txns) (hlog : s'.log = s.log) (hclock : s'.clock = s.clock)
    (hqueues : s'.db.queue = s.db.queue) (hmessages : s'.db.queueMessage = s.db.queueMessage)
    (hactive : u.phase.active)
    (hpicked : ∀ id, id ∈ (u.scan .lease).picked ↔ id ∈ new ∨
      ∃ t, s.txns tid = some t ∧ t.phase.active ∧ id ∈ (t.scan .lease).picked)
    (hwindow : u.InWindow s₀ queue fun id => s.Claimed events id ∨ id ∈ new)
    (hlocked : ∀ m ∈ s₀.deliverable queue, ∀ other, s'.locks (.message m.id) = some other →
      s.locks (.message m.id) = some other ∨ s.Claimed events m.id ∨ m.id ∈ new)
    (hordered : ClaimedInOrder ((s₀.deliverable queue).map (·.id))
      fun id => s.Claimed events id ∨ id ∈ new) :
    s'.Window s₀ queue events := by
  -- the claims after the step
  have hclaimed : ∀ id, s'.Claimed events id ↔ s.Claimed events id ∨ id ∈ new := by
    intro id
    unfold System.Claimed
    rw [htxns]
    constructor
    · rintro (hid | ⟨other, v, hv, hvactive, hid⟩)
      · exact Or.inl (Or.inl hid)
      · rcases System.setTxn_eq_some.mp hv with ⟨rfl, rfl⟩ | ⟨-, hv⟩
        · rcases (hpicked id).mp hid with hnew | ⟨t, ht, htactive, hid⟩
          · exact Or.inr hnew
          · exact Or.inl (Or.inr ⟨_, t, ht, htactive, hid⟩)
        · exact Or.inl (Or.inr ⟨other, v, hv, hvactive, hid⟩)
    · rintro ((hid | ⟨other, v, hv, hvactive, hid⟩) | hnew)
      · exact Or.inl hid
      · by_cases hother : other = tid
        · subst hother
          exact Or.inr ⟨other, u, s.setTxn_self other u, hactive,
            (hpicked id).mpr (Or.inr ⟨v, hv, hvactive, hid⟩)⟩
        · exact Or.inr ⟨other, v, (s.setTxn_other u hother).trans hv, hvactive, hid⟩
      · exact Or.inr ⟨tid, u, s.setTxn_self tid u, hactive, (hpicked id).mpr (Or.inl hnew)⟩
  have hkept : ∀ id, s.Claimed events id → s'.Claimed events id :=
    fun id hid => (hclaimed id).mpr (Or.inl hid)
  exact {
    log := hlog.trans h.log
    clock := h.clock.trans hclock.ge
    queues := hqueues.trans h.queues
    enqueuedAt := hmessages ▸ h.enqueuedAt
    candidates := hmessages ▸ h.candidates
    leased := hmessages ▸ h.leased
    txn := fun other v hv hvactive => by
      rw [htxns] at hv
      rcases System.setTxn_eq_some.mp hv with ⟨rfl, rfl⟩ | ⟨-, hv⟩
      · exact hwindow.mono fun id hid => (hclaimed id).mpr hid
      · exact (h.txn other v hv hvactive).mono hkept
    locked := fun m hm other hlock => by
      rcases hlocked m hm other hlock with hold | hnew
      · exact hkept _ (h.locked m hm other hold)
      · exact (hclaimed _).mpr hnew
    ordered := fun a b hab hb =>
      (hclaimed a).mpr (hordered a b hab ((hclaimed b).mp hb))
    nodup := h.nodup
    among := h.among
    empty := fun e he hnone m hm => hkept _ (h.empty e he hnone m hm)
    succeeded := h.succeeded }

/-- One transaction goes on and claims nothing. -/
theorem System.Window.proceed (h : s.Window s₀ queue events) {u : Txn}
    (htxns : s'.txns = (s.setTxn tid u).txns) (hlog : s'.log = s.log) (hclock : s'.clock = s.clock)
    (hqueues : s'.db.queue = s.db.queue) (hmessages : s'.db.queueMessage = s.db.queueMessage)
    (hactive : u.phase.active)
    (hpicked : ∀ id, id ∈ (u.scan .lease).picked ↔
      ∃ t, s.txns tid = some t ∧ t.phase.active ∧ id ∈ (t.scan .lease).picked)
    (hwindow : u.InWindow s₀ queue (s.Claimed events))
    (hlocked : ∀ m ∈ s₀.deliverable queue, ∀ other, s'.locks (.message m.id) = some other →
      s.locks (.message m.id) = some other ∨ s.Claimed events m.id) :
    s'.Window s₀ queue events := by
  refine h.advance [] htxns hlog hclock hqueues hmessages hactive
    (fun id => by simpa using hpicked id) (hwindow.mono fun _ => Or.inl) (fun m hm other hlock => ?_)
    (by simpa using h.ordered)
  exact (hlocked m hm other hlock).imp_right Or.inl

/-- A transaction that goes on without picking anything has what it had. -/
theorem picked_same (ht : s.txns tid = some t) (hactive : t.phase.active) {u : Txn}
    (hscan : (u.scan .lease).picked = (t.scan .lease).picked) (id : Uuid) :
    id ∈ (u.scan .lease).picked ↔
      ∃ t, s.txns tid = some t ∧ t.phase.active ∧ id ∈ (t.scan .lease).picked := by
  rw [hscan]
  constructor
  · exact fun hid => ⟨t, ht, hactive, hid⟩
  · rintro ⟨t', ht', -, hid⟩
    obtain rfl := Option.some.inj (ht.symm.trans ht')
    exact hid

theorem System.Window.begin (h : s.Window s₀ queue events) {op : Operation}
    (hop : op.dequeuesFrom queue.id) (hidle : s.txns tid = none) :
    (s.begin tid op).Window s₀ queue events := by
  refine h.proceed (u := Txn.begin op s.clock) rfl rfl rfl rfl rfl rfl (fun id => ?_) {
    op := hop
    now := h.clock
    idle := fun _ => rfl
    target := fun hphase => absurd rfl hphase
    limit := fun hphase => absurd rfl hphase
    covers := fun hphase => absurd rfl hphase
    deletes := fun m hm => List.not_mem_nil
    ended := fun hphase => by simp [Txn.begin] at hphase } fun _ _ _ => Or.inl
  refine iff_of_false List.not_mem_nil ?_
  rintro ⟨t, ht, -⟩
  rw [hidle] at ht
  simp at ht

/-- **A snapshot selects the deliverable messages that are left**, and so passes over claimed
    ones only. -/
theorem System.Window.takeSnapshot (h : s.Window s₀ queue events) (h₀ : s₀.Inv) (hinv : s.Inv)
    (hqueue : queue ∈ s₀.db.queue) (hquiet : s.db.Quiet s₀.clock s.clock)
    (ht : s.txns tid = some t) (hphase : t.phase = .started) :
    (s.takeSnapshot tid t).Window s₀ queue events := by
  have hactive : t.phase.active := by rw [hphase]; rfl
  have hwindow := h.txn tid t ht hactive
  obtain ⟨receiptHandle, hop⟩ := Operation.dequeuesFrom_iff.mp hwindow.op
  have hnow := (hinv.txn tid t ht hactive).now_le
  have htarget : targetQueue s.db queue.id = some queue :=
    hinv.valid.find_queue.mpr ⟨h.queues ▸ hqueue, rfl⟩
  have hlease : t.op.select s.db t.now .lease =
      .start ((deliveryCandidates s.db queue t.now).map (·.id)) 1 := by
    simp only [hop, Operation.select, htarget]
  have hdelete : t.op.select s.db t.now .delete =
      .start ((deadLetterCandidates s.db queue t.now).map (·.id)) dequeueDeadLetterBatchSize := by
    simp only [hop, Operation.select, htarget]
  have hcandidates := h.deliveryCandidates_eq hinv hquiet hwindow.now hnow h₀.valid
  refine h.proceed (u := { t with
      phase := .selecting
      queue := t.op.target s.db
      scan := t.op.select s.db t.now
      enqueueOrder := s.db.enqueueOrderSequence }) rfl rfl rfl rfl rfl rfl
    (picked_same ht hactive ?_) {
    op := hwindow.op
    now := hwindow.now
    idle := fun hstarted => by simp at hstarted
    target := fun _ => by simp only [hop, Operation.target, htarget]
    limit := fun _ => ?_
    covers := fun _ => ?_
    deletes := fun m hm => ?_
    ended := fun hcounting => by simp at hcounting } fun _ _ _ => Or.inl
  · simp only [hlease, Scan.start_picked, hwindow.idle hphase]
  · simp only [hlease]
    exact Scan.start_wellFormed
      (((orderBy_perm _ _).map _).nodup_iff.mpr
        ((List.filter_sublist.map _).nodup hinv.valid.messages.ids)) 1
  · simp only [hlease, hcandidates]
    refine ⟨List.filter_sublist.map _, fun id hid => ?_⟩
    obtain ⟨m, hm, rfl⟩ := List.mem_map.mp hid
    by_cases hnew : m.id ∈ deliveredIds events
    · exact Or.inr (Or.inl hnew)
    · exact Or.inl (List.mem_map_of_mem (List.mem_filter.mpr ⟨hm, by simpa using hnew⟩))
  · simp only [hdelete, Scan.start_pending]
    intro hmem
    obtain ⟨m', hm', hid⟩ := List.mem_map.mp hmem
    obtain ⟨hlive, hexhausted⟩ := List.mem_filter.mp (mem_orderBy.mp hm')
    exact h.not_exhausted hinv hquiet hnow hm hlive hid hexhausted

/-- A dequeue visits a row that it could dead-letter. -/
theorem System.Window.visitDelete (h : s.Window s₀ queue events) (ht : s.txns tid = some t)
    (hphase : t.phase = .selecting) {id : Uuid} (hnext : (t.scan .delete).next = some id)
    {scan : Scan Uuid} (htail : scan.pending = (t.scan .delete).pending.tail)
    {locks : LockTable Lock Nat}
    (hlocks : ∀ k other, locks k = some other → s.locks k = some other ∨ k = .message id) :
    System.Window { s.setTxn tid (t.setScan .delete scan) with locks := locks } s₀ queue events := by
  have hactive : t.phase.active := by rw [hphase]; rfl
  have hwindow := h.txn tid t ht hactive
  refine h.proceed rfl rfl rfl rfl rfl hactive (picked_same ht hactive rfl)
    (hwindow.visitDelete hphase htail) fun m hm other hlock => ?_
  refine (hlocks _ other hlock).imp_right fun heq => ?_
  -- no message that was deliverable is visited here
  obtain ⟨-, hpending⟩ := Scan.next_eq_some hnext
  refine absurd ?_ (hwindow.deletes m hm)
  rw [hpending, Lock.message.inj heq]
  exact List.mem_cons_self

/-- A dequeue passes over a row that is claimed. -/
theorem System.Window.passLease (h : s.Window s₀ queue events) (ht : s.txns tid = some t)
    (hphase : t.phase = .selecting) {id : Uuid} (hnext : (t.scan .lease).next = some id)
    (hclaimed : s.Claimed events id) {locks : LockTable Lock Nat}
    (hlocks : ∀ k other, locks k = some other → s.locks k = some other ∨ k = .message id) :
    System.Window { s.setTxn tid (t.setScan .lease (t.scan .lease).pass) with locks := locks }
      s₀ queue events := by
  have hactive : t.phase.active := by rw [hphase]; rfl
  have hwindow := h.txn tid t ht hactive
  have hlimit := hwindow.limit (by simp [hphase])
  refine h.proceed rfl rfl rfl rfl rfl hactive (picked_same ht hactive (by simp [Txn.setScan]))
    (hwindow.visitLease hphase hnext hclaimed rfl hlimit.pass) fun m _ other hlock => ?_
  refine (hlocks _ other hlock).imp_right fun heq => ?_
  rw [Lock.message.inj heq]
  exact hclaimed

/-- **A dequeue that picks a row claims the first one that is not claimed.** -/
theorem System.Window.pickLease (h : s.Window s₀ queue events) (h₀ : s₀.Inv)
    (ht : s.txns tid = some t) (hphase : t.phase = .selecting) {id : Uuid}
    (hnext : (t.scan .lease).next = some id) {locks : LockTable Lock Nat}
    (hlocks : ∀ k other, locks k = some other → s.locks k = some other ∨ k = .message id) :
    System.Window { s.setTxn tid (t.setScan .lease ((t.scan .lease).pick id)) with locks := locks }
      s₀ queue events := by
  have hactive : t.phase.active := by rw [hphase]; rfl
  have hwindow := h.txn tid t ht hactive
  have hlimit := hwindow.limit (by simp [hphase])
  have hcovers := hwindow.covers (by simp [hphase])
  refine h.advance [id] rfl rfl rfl rfl rfl hactive (fun other => ?_)
    ((hwindow.mono fun _ => Or.inl).visitLease hphase hnext (Or.inr (by simp)) rfl
      (hlimit.pick hnext)) (fun m _ other hlock => ?_) ?_
  · have hsame := picked_same (u := t) ht hactive rfl other
    rw [← hsame, t.setScan_self, Scan.pick_picked, List.mem_append, or_comm]
  · refine (hlocks _ other hlock).imp_right fun heq => Or.inr ?_
    simp [Lock.message.inj heq]
  · simpa using hcovers.claim (System.deliverable_ids_nodup h₀.valid) h.ordered hnext

/-- A commit turns what its dequeue has picked into a delivery: the same messages are claimed. -/
theorem System.claimed_commit (ht : s.txns tid = some t) (hactive : t.phase.active)
    (hids : ∀ id, id ∈ deliveredIds (events ++ [s.commitEvent order t]) ↔
      id ∈ deliveredIds events ∨ id ∈ (t.scan .lease).picked) (id : Uuid) :
    (s.commit order tid t).Claimed (events ++ [s.commitEvent order t]) id ↔
      s.Claimed events id := by
  unfold System.Claimed
  rw [hids]
  constructor
  · rintro ((hid | hid) | ⟨other, u, hu, huactive, hid⟩)
    · exact Or.inl hid
    · exact Or.inr ⟨tid, t, ht, hactive, hid⟩
    · exact Or.inr ⟨other, u, (s.setTxn_ended rfl hu huactive).1, huactive, hid⟩
  · rintro (hid | ⟨other, u, hu, huactive, hid⟩)
    · exact Or.inl (Or.inl hid)
    · by_cases hother : other = tid
      · subst hother
        obtain rfl := Option.some.inj (ht.symm.trans hu)
        exact Or.inl (Or.inr hid)
      · exact Or.inr ⟨other, u, (s.setTxn_other _ hother).trans hu, huactive, hid⟩

/-- The dequeue that commits has selected a deliverable message that is new, or none. -/
theorem System.Window.commit_dequeue (h : s.Window s₀ queue events) (hinv : s.Inv)
    (hquiet : s.db.Quiet s₀.clock s.clock) (order : TriggerOrder) (ht : s.txns tid = some t)
    (hphase : t.phase = .counting) :
    ∃ (receiptHandle : Uuid) (exhausted : List QueueMessage) (candidate : Option QueueMessage)
      (outcome : DequeueMessageOutcome), DequeueSelection s.db queue t.now exhausted candidate ∧
        (s.commit order tid t).db.queue = s.db.queue ∧
        (s.commit order tid t).db.queueMessage = dequeuedMessages receiptHandle t.now
          queue.visibilityTimeoutSeconds (exhausted.map (·.id)) (candidate.map (·.id))
          s.db.queueMessage ∧
        (s.commitEvent order t).response = .dequeueMessage outcome ∧
        (s.commitEvent order t).response.delivered = candidate.map (·.id) ∧
        (∀ id, id ∈ (t.scan .lease).picked ↔ candidate.map (·.id) = some id) ∧
        ∀ m ∈ candidate, m ∈ s₀.deliverable queue ∧ m.id ∉ deliveredIds events := by
  have hactive : t.phase.active := by rw [hphase]; rfl
  have hwindow := h.txn tid t ht hactive
  have htinv := hinv.txn tid t ht hactive
  have hqueue := hwindow.target (by simp [hphase])
  obtain ⟨receiptHandle, hop⟩ := Operation.dequeuesFrom_iff.mp hwindow.op
  obtain ⟨exhausted, candidate, hsel, hexhausted, hcandidate, -⟩ :=
    htinv.dequeueSelection hinv.valid hqueue
  obtain ⟨stored, shards, outcome, hdelivers, hrun⟩ := executeDequeue_delivers order receiptHandle
    hinv.valid hsel (fun m hm => hinv.disjoint m (hsel.exhausted m hm).1)
    fun m hm => (h.enqueuedAt m (hsel.candidate m hm).1).trans hwindow.now
  have hexec : t.execute order s.db = settle s.db
      (fun row => respond .dequeueMessage (decodeDequeue receiptHandle row))
      (executeDequeue order s.db queue receiptHandle t.now (exhausted.map (·.id))
        (candidate.map (·.id))) := by
    simp only [Txn.execute, hop, hqueue]
    rw [hexhausted, hcandidate]
  rw [hrun] at hexec
  have hresponse : (s.commitEvent order t).response = .dequeueMessage outcome :=
    congrArg Prod.snd hexec
  refine ⟨receiptHandle, exhausted, candidate, outcome, hsel,
    congrArg (fun result : Database × Response => result.1.queue) hexec,
    congrArg (fun result : Database × Response => result.1.queueMessage) hexec, hresponse, ?_,
    fun id => by rw [htinv.leases_singleton, hcandidate], fun m hm => ?_⟩
  · rw [hresponse, hdelivers.delivered]
  · obtain ⟨hlive, hwanted⟩ := hsel.candidate m hm
    exact (h.candidates m).mp
      ⟨hlive, (hquiet.isCandidate_iff hlive hwindow.now htinv.now_le).mp hwanted⟩

/-- **A commit delivers the message that the dequeue has claimed.** -/
theorem System.Window.commit (h : s.Window s₀ queue events) (h₀ : s₀.Inv) (hinv : s.Inv)
    (hquiet : s.db.Quiet s₀.clock s.clock) (order : TriggerOrder) (ht : s.txns tid = some t)
    (hphase : t.phase = .counting) :
    (s.commit order tid t).Window s₀ queue (events ++ [s.commitEvent order t]) := by
  have hactive : t.phase.active := by rw [hphase]; rfl
  have hwindow := h.txn tid t ht hactive
  obtain ⟨receiptHandle, exhausted, candidate, outcome, hsel, hqueues, hmessages, hresponse,
    hdelivered, hpicked, hnew⟩ := h.commit_dequeue hinv hquiet order ht hphase
  have hids : deliveredIds (events ++ [s.commitEvent order t]) =
      deliveredIds events ++ (candidate.map (·.id)).toList := by
    unfold deliveredIds
    rw [List.filterMap_append, List.filterMap_cons, hdelivered]
    cases candidate <;> rfl
  have hclaimed := System.claimed_commit ht hactive fun id => by
    rw [hids, List.mem_append, Option.mem_toList, hpicked]
  have hvisibility := (QueueRow.checked_iff.mp hsel.checked).2.2.1.1
  exact {
    log := by
      rw [← List.append_assoc, ← h.log]
      rfl
    clock := h.clock
    queues := hqueues.trans h.queues
    enqueuedAt := fun m' hm' => by
      rw [hmessages] at hm'
      obtain ⟨m, hm, -, rfl⟩ := mem_dequeuedMessages.mp hm'
      split <;> exact h.enqueuedAt m hm
    candidates := fun m => by
      rw [hmessages, hsel.candidates hinv.valid hwindow.now, h.candidates, hids, List.mem_append,
        not_or, ← and_assoc, Option.mem_toList]
      refine and_congr_right fun hm => not_congr ⟨fun hsome => by rw [hsome]; rfl, fun hid => ?_⟩
      obtain ⟨c, hc, hcid⟩ := Option.map_eq_some_iff.mp hid
      rw [hc, eq_of_key_eq (System.deliverable_ids_nodup h₀.valid) (hnew c hc).1 hm.1 hcid]
    leased := fun m' hm' hid => by
      rw [hmessages] at hm'
      obtain ⟨m, hm, -, rfl⟩ := mem_dequeuedMessages.mp hm'
      split at hid
      · rename_i hc
        rw [if_pos hc]
        refine ⟨rfl, ?_⟩
        have hsince := hwindow.now
        show s₀.clock < t.now + seconds queue.visibilityTimeoutSeconds
        unfold seconds
        omega
      · rename_i hc
        rw [if_neg hc]
        rw [hids, List.mem_append, Option.mem_toList] at hid
        exact h.leased m hm (hid.resolve_right hc)
    txn := fun other u hu huactive => by
      obtain ⟨hu, -⟩ := s.setTxn_ended rfl hu huactive
      exact (h.txn other u hu huactive).mono fun id => (hclaimed id).mpr
    locked := fun m hm other hlock =>
      (hclaimed _).mpr (h.locked m hm other (LockTable.release_eq_some.mp hlock).1)
    ordered := fun a b hab hb => (hclaimed a).mpr (h.ordered a b hab ((hclaimed b).mp hb))
    nodup := by
      rw [hids]
      refine List.nodup_append.mpr ⟨h.nodup, Option.toList_nodup _, fun id hid id' hid' heq => ?_⟩
      obtain ⟨c, hc, rfl⟩ := Option.map_eq_some_iff.mp (Option.mem_toList.mp hid')
      exact (hnew c hc).2 (heq ▸ hid)
    among := fun id hid => by
      rw [hids, List.mem_append, Option.mem_toList] at hid
      rcases hid with hid | hid
      · exact h.among id hid
      · obtain ⟨c, hc, rfl⟩ := Option.map_eq_some_iff.mp hid
        exact List.mem_map_of_mem (hnew c hc).1
    empty := fun e he hnone m hm => by
      refine (hclaimed _).mpr ?_
      rcases List.mem_append.mp he with he | he
      · exact h.empty e he hnone m hm
      -- a dequeue that has found nothing has passed over all of them
      · obtain rfl := List.mem_singleton.mp he
        rw [hdelivered] at hnone
        have hnothing : (t.scan .lease).picked = [] :=
          List.eq_nil_iff_forall_not_mem.mpr fun id hid => by simp [hpicked, hnone] at hid
        exact (hwindow.covers (by simp [hphase])).exhausted (hwindow.limit (by simp [hphase]))
          (hwindow.ended hphase) hnothing _ (List.mem_map_of_mem hm)
    succeeded := List.forall_mem_append.mpr
      ⟨h.succeeded, List.forall_mem_singleton.mpr ⟨hwindow.op, outcome, hresponse⟩⟩ }

/-- **Every step of the window preserves what holds in it.** -/
theorem System.Window.step (h : s.Window s₀ queue events) (h₀ : s₀.Inv) (hinv : s.Inv)
    (hqueue : queue ∈ s₀.db.queue) {a : Action} (hallowed : DequeuesOnly queue.id s₀.clock s a)
    (hstep : Step order s a s') : ∃ events', s'.Window s₀ queue events' := by
  obtain ⟨hquiet, hallowed⟩ := hallowed
  have hacquire : ∀ {tid : Nat} {t : Txn} {id : Uuid}, t.op.isPurge = false →
      ∀ k other, s.locks.acquire tid (t.lock id) k = some other →
        s.locks k = some other ∨ k = .message id := by
    intro tid t id hpurge k other hk
    rcases LockTable.acquire_eq_some.mp hk with ⟨rfl, -⟩ | ⟨-, hk⟩
    · exact Or.inr (by simp [Txn.lock, hpurge])
    · exact Or.inl hk
  -- the row that a lease scan visits was deliverable
  have hvisited : ∀ {tid : Nat} {t : Txn} {id : Uuid}, s.txns tid = some t →
      t.phase = .selecting → (t.scan .lease).next = some id →
      ∃ m ∈ s₀.deliverable queue, m.id = id := by
    intro tid t id ht hphase hnext
    obtain ⟨-, hpending⟩ := Scan.next_eq_some hnext
    have hcovers := (h.txn tid t ht (by rw [hphase]; rfl)).covers (by simp [hphase])
    exact List.mem_map.mp (hcovers.pending.subset (hpending ▸ List.mem_cons_self))
  cases hstep with
  | tick htime => exact ⟨events, { h with clock := h.clock.trans htime }⟩
  | start hidle => exact ⟨events, h.begin hallowed hidle⟩
  | snapshot ht hphase => exact ⟨events, h.takeSnapshot h₀ hinv hqueue hquiet ht hphase⟩
  | @pass tid t selection id ht hphase hnext hreason =>
    have hactive : t.phase.active := by rw [hphase]; rfl
    have hpurge := (h.txn tid t ht hactive).isPurge
    refine ⟨events, ?_⟩
    cases selection with
    | delete => exact h.visitDelete ht hphase hnext rfl fun _ _ => Or.inl
    | lease =>
      refine h.passLease ht hphase hnext ?_ fun _ _ => Or.inl
      obtain ⟨m, hm, rfl⟩ := hvisited ht hphase hnext
      rcases hreason with ⟨hblocked, -⟩ | ⟨-, hgone⟩
      · obtain ⟨other, hlock, -⟩ := LockTable.blocks_eq_true.mp hblocked
        exact h.locked m hm other (by simpa [Txn.lock, hpurge] using hlock)
      · exact Or.inl (h.delivered_of_unwanted hinv hquiet ht hactive (by simp [hphase]) hm
          (by simp [hgone]))
  | @reject tid t selection id ht hphase hnext hfree hrecheck =>
    have hactive : t.phase.active := by rw [hphase]; rfl
    have hpurge := (h.txn tid t ht hactive).isPurge
    refine ⟨events, ?_⟩
    cases selection with
    | delete => exact h.visitDelete ht hphase hnext rfl (hacquire hpurge)
    | lease =>
      refine h.passLease ht hphase hnext ?_ (hacquire hpurge)
      obtain ⟨m, hm, rfl⟩ := hvisited ht hphase hnext
      exact Or.inl (h.delivered_of_unwanted hinv hquiet ht hactive (by simp [hphase]) hm
        (by simp [hrecheck]))
  | @pick tid t selection id ht hphase hnext hfree hrecheck =>
    have hpurge := (h.txn tid t ht (by rw [hphase]; rfl)).isPurge
    refine ⟨events, ?_⟩
    cases selection with
    | delete => exact h.visitDelete ht hphase hnext rfl (hacquire hpurge)
    | lease => exact h.pickLease h₀ ht hphase hnext (hacquire hpurge)
  | @count tid t ht hphase hselected =>
    have hactive : t.phase.active := by rw [hphase]; rfl
    have hwindow := h.txn tid t ht hactive
    have hstarted : t.phase ≠ .started := by simp [hphase]
    exact ⟨events, h.proceed rfl rfl rfl rfl rfl rfl (picked_same ht hactive rfl) {
      op := hwindow.op
      now := hwindow.now
      idle := fun hcounting => by simp at hcounting
      target := fun _ => hwindow.target hstarted
      limit := fun _ => hwindow.limit hstarted
      covers := fun _ => hwindow.covers hstarted
      deletes := hwindow.deletes
      ended := fun _ => hselected .lease } fun _ _ _ => Or.inl⟩
  | @lockCounter tid t key rest ht hphase hnext hfree =>
    have hactive : t.phase.active := by rw [hphase]; rfl
    have hwindow := h.txn tid t ht hactive
    refine ⟨events, h.proceed rfl rfl rfl rfl rfl hactive (picked_same ht hactive rfl)
      { hwindow with } fun m _ other hlock => Or.inl ?_⟩
    have hlock : s.locks.acquire tid (.counter key) (.message m.id) = some other := hlock
    rcases LockTable.acquire_eq_some.mp hlock with ⟨heq, -⟩ | ⟨-, hlock⟩
    · simp at heq
    · exact hlock
  | commit ht hphase => exact ⟨_, h.commit h₀ hinv hquiet order ht hphase⟩
  | abort => exact hallowed.elim

/-- In the beginning nothing is claimed. -/
theorem System.window_start (h₀ : s₀.Inv) (hquiescent : s₀.Quiescent) :
    s₀.Window s₀ queue [] := by
  have hidle : ∀ {tid : Nat} {t : Txn}, s₀.txns tid = some t → ¬t.phase.active := by
    intro tid t ht
    simp [hquiescent tid t ht]
  have hfree : ∀ id, ¬s₀.Claimed [] id := by
    rintro id (hid | ⟨tid, t, ht, hactive, -⟩)
    · simp [deliveredIds] at hid
    · exact hidle ht hactive
  exact {
    log := (List.append_nil _).symm
    clock := le_rfl
    queues := rfl
    enqueuedAt := h₀.enqueuedAt
    candidates := fun m => by
      rw [System.mem_deliverable]
      simp [deliveredIds]
    leased := fun m _ hid => by simp [deliveredIds] at hid
    txn := fun tid t ht hactive => absurd hactive (hidle ht)
    locked := fun m _ tid hlock => by
      obtain ⟨t, ht, hactive⟩ := h₀.holder _ _ hlock
      exact absurd hactive (hidle ht)
    ordered := fun a b _ hb => absurd hb (hfree b)
    nodup := List.nodup_nil
    among := fun id hid => by simp [deliveredIds] at hid
    empty := fun e he => by simp at he
    succeeded := fun e he => by simp at he }

/-- What holds in every state of the window. -/
theorem window_of_execution (h₀ : Reachable order s₀) (hquiescent : s₀.Quiescent)
    (hqueue : queue ∈ s₀.db.queue)
    (h : Execution (step order) (DequeuesOnly queue.id s₀.clock) s₀ s) :
    ∃ events, s.Window s₀ queue events := by
  refine h.invariant (I := fun s => ∃ events, s.Window s₀ queue events)
    ⟨[], System.window_start h₀.inv hquiescent⟩ fun s a s' hrun ⟨events, hwindow⟩ hallowed hstep => ?_
  exact hwindow.step h₀.inv (Reachable.inv (h₀.trans hrun.any)) hqueue hallowed (step_cases hstep)

/-! ## Concurrent and sequential dequeues -/

/-- When all dequeues have ended, they have delivered the first deliverable messages. -/
theorem System.Window.delivered (h : s.Window s₀ queue events) (h₀ : s₀.Inv)
    (hended : s.Quiescent) :
    (deliveredIds events).Perm (((s₀.deliverable queue).take events.length).map (·.id)) ∧
      ∀ e ∈ events, e.response.delivered = none →
        ∀ m ∈ s₀.deliverable queue, m.id ∈ deliveredIds events := by
  have hclaimed : ∀ id, s.Claimed events id ↔ id ∈ deliveredIds events := by
    refine fun id => ⟨?_, Or.inl⟩
    rintro (hid | ⟨tid, t, ht, hactive, -⟩)
    · exact hid
    · simp [hended tid t ht] at hactive
  have hempty : ∀ e ∈ events, e.response.delivered = none →
      ∀ m ∈ s₀.deliverable queue, m.id ∈ deliveredIds events :=
    fun e he hnone m hm => (hclaimed _).mp (h.empty e he hnone m hm)
  refine ⟨?_, hempty⟩
  have hids : ((s₀.deliverable queue).map (·.id)).Nodup := System.deliverable_ids_nodup h₀.valid
  have hperm := ClaimedInOrder.perm_take hids h.nodup h.among
    fun a b hab hb => (hclaimed a).mp (h.ordered a b hab ((hclaimed b).mpr hb))
  rw [List.map_take]
  by_cases hall : ∀ e ∈ events, (e.response.delivered).isSome
  · -- every dequeue has delivered a message
    rwa [deliveredIds, List.filterMap_length_eq_length.mpr hall] at hperm
  · -- one has found nothing, so all were delivered
    obtain ⟨e, he, hnone⟩ := by simpa using hall
    have hle : ((s₀.deliverable queue).map (·.id)).length ≤ (deliveredIds events).length :=
      (List.subperm_of_subset hids fun id hid => by
        obtain ⟨m, hm, rfl⟩ := List.mem_map.mp hid
        exact hempty e he hnone m hm).length_le
    rw [List.take_of_length_le hle] at hperm
    rwa [List.take_of_length_le (hle.trans (List.length_filterMap_le _ _))]

/-- **Concurrent dequeues deliver what sequential ones deliver.**  From a state in which no
    transaction is going on, let dequeues on a queue run concurrently, in any interleaving,
    without aborts and while nothing expires and no lease ends.  When they have all ended they
    have delivered, each to one of them, the first of the messages that were deliverable, as
    many as there were dequeues; so one of them finds nothing only if the others got them all,
    and as many dequeues one after the other deliver the same messages. -/
theorem concurrent_dequeues (h₀ : Reachable order s₀) (hquiescent : s₀.Quiescent)
    (hqueue : queue ∈ s₀.db.queue)
    (h : Execution (step order) (DequeuesOnly queue.id s₀.clock) s₀ s) (hended : s.Quiescent) :
    ∃ events, s.log = s₀.log ++ events ∧
      (∀ e ∈ events, e.op.dequeuesFrom queue.id ∧ ∃ outcome, e.response = .dequeueMessage outcome) ∧
      (deliveredIds events).Nodup ∧
      (deliveredIds events).Perm (((s₀.deliverable queue).take events.length).map (·.id)) ∧
      (∀ e ∈ events, e.response.delivered = none →
        ∀ m ∈ s₀.deliverable queue, m.id ∈ deliveredIds events) ∧
      ∀ calls : List Call, calls.length = events.length →
        (∀ c ∈ calls, ∃ receiptHandle, c.op = .dequeueMessage queue.id receiptHandle) →
        (∀ e ∈ history order s₀.db calls, s₀.clock ≤ e.now ∧ e.before.Quiet s₀.clock e.now) →
        deliveredIds (history order s₀.db calls) =
          ((s₀.deliverable queue).take events.length).map (·.id) := by
  obtain ⟨events, hwindow⟩ := window_of_execution h₀ hquiescent hqueue h
  obtain ⟨hperm, hempty⟩ := hwindow.delivered h₀.inv hended
  refine ⟨events, hwindow.log, hwindow.succeeded, hwindow.nodup, hperm, hempty,
    fun calls hlength hdequeues hquiet => ?_⟩
  have hready : s₀.db.Dequeuable queue s₀.clock :=
    ⟨h₀.inv.valid, hqueue, h₀.inv.disjoint, h₀.inv.enqueuedAt⟩
  rw [← hlength]
  exact quiet_history order hready hdequeues hquiet

/-! ## Values for an example -/

def Action.startsBelow (n : Nat) : Action → Bool
  | start tid _ => tid < n
  | _ => true

/-- Transactions that are never started. -/
theorem idle_of_runAllowed {allowed : System → Action → Prop} [∀ s a, Decidable (allowed s a)]
    {n : Nat} {actions : List Action} (hstart : ∀ a ∈ actions, a.startsBelow n)
    (h : runAllowed (step order) allowed s actions = some s')
    (hidle : ∀ tid, n ≤ tid → s.txns tid = none) : ∀ tid, n ≤ tid → s'.txns tid = none := by
  induction actions generalizing s with
  | nil =>
    obtain rfl := Option.some.inj h
    exact hidle
  | cons a actions ih =>
    obtain ⟨s₁, -, hstep, hrest⟩ := runAllowed_cons.mp h
    refine ih (fun a ha => hstart a (List.mem_cons_of_mem _ ha)) hrest fun tid htid => ?_
    have hbelow := hstart a List.mem_cons_self
    have hold := hidle tid htid
    -- the transaction of the step is another one
    have hset : ∀ {actor : Nat} {t u : Txn}, s.txns actor = some t →
        (s.setTxn actor u).txns tid = none := by
      intro actor t u ht
      refine (s.setTxn_other u ?_).trans hold
      rintro rfl
      rw [ht] at hold
      simp at hold
    cases step_cases hstep with
    | tick => exact hold
    | start =>
      refine (s.setTxn_other _ ?_).trans hold
      simp only [Action.startsBelow, decide_eq_true_eq] at hbelow
      omega
    | snapshot ht | pass ht | reject ht | pick ht | count ht | lockCounter ht | commit ht
    | abort ht => exact hset ht

def System.quiescentBelow (s : System) (n : Nat) : Bool :=
  (List.range n).all fun tid => (s.txns tid).all fun t => !t.phase.active

/-- A run is over when the transactions that were started have ended. -/
theorem quiescent_of_idle {n : Nat} (hidle : ∀ tid, n ≤ tid → s.txns tid = none)
    (hended : s.quiescentBelow n = true) : s.Quiescent := by
  intro tid t ht
  by_cases htid : tid < n
  · simp only [System.quiescentBelow, List.all_eq_true, List.mem_range] at hended
    simpa [ht] using hended tid htid
  · rw [hidle tid (by omega)] at ht
    simp at ht

/-- A queue with two messages. -/
def twoQueued : List Action :=
  oneOrder 5 fiveAttempts_inRange ++ transaction 2 (.enqueueMessage 1 (orderMessage 8) 60) [] 1

/-- Three dequeues that run at the same time: the second passes over the message that the first
    has locked, and the third over both. -/
def threeDequeues : List Action := [
  .start 3 (.dequeueMessage 1 11), .snapshot 3, .start 4 (.dequeueMessage 1 12), .snapshot 4,
  .visit 3 .lease, .visit 4 .lease, .tick 1, .start 5 (.dequeueMessage 1 13), .snapshot 5,
  .visit 5 .lease, .visit 4 .lease, .count 4, .lockCounter 4, .commit 4,
  .visit 5 .lease, .count 5, .commit 5, .count 3, .lockCounter 3, .commit 3]

theorem concurrent_dequeues_threeDequeues : ∃ s₀ s,
    runActions .deleteFirst twoQueued = some s₀ ∧
    Execution (step .deleteFirst) (DequeuesOnly 1 s₀.clock) s₀ s ∧
    s.log.map (·.response.delivered) = [none, none, none, some 8, none, some 7] ∧
    ∃ events, s.log = s₀.log ++ events ∧
      ∀ e ∈ events, e.response.delivered = none →
        ∀ m ∈ s₀.deliverable ⟨1, "orders", 1, 5, 604800, 0, 0⟩, m.id ∈ deliveredIds events := by
  have hrun : ((runActions .deleteFirst twoQueued).bind fun s₀ =>
      (runAllowed (step .deleteFirst) (DequeuesOnly 1 s₀.clock) s₀ threeDequeues).map fun s =>
        (s₀.db.queue, s₀.quiescentBelow 3, s.quiescentBelow 6,
          s.log.map (·.response.delivered))) =
      some ([⟨1, "orders", 1, 5, 604800, 0, 0⟩], true, true,
        [none, none, none, some 8, none, some 7]) := by
    decide +kernel
  obtain ⟨s₀, hs₀, hrun⟩ := Option.bind_eq_some_iff.mp hrun
  obtain ⟨s, hs, hrun⟩ := Option.map_eq_some_iff.mp hrun
  simp only [Prod.mk.injEq] at hrun
  obtain ⟨hqueues, hended₀, hended, hdelivered⟩ := hrun
  have hidle₀ : ∀ tid, 3 ≤ tid → s₀.txns tid = none :=
    idle_of_runAllowed (by decide) hs₀ fun _ _ => rfl
  have hidle : ∀ tid, 6 ≤ tid → s.txns tid = none :=
    idle_of_runAllowed (by decide) hs fun tid htid => hidle₀ tid (by omega)
  have hqueue : (⟨1, "orders", 1, 5, 604800, 0, 0⟩ : QueueRow) ∈ s₀.db.queue := by
    rw [hqueues]
    exact List.mem_cons_self
  have hexec := execution_of_runAllowed hs
  obtain ⟨events, hlog, -, -, -, hempty, -⟩ := concurrent_dequeues (reachable_of_runActions hs₀)
    (quiescent_of_idle hidle₀ hended₀) hqueue hexec (quiescent_of_idle hidle hended)
  exact ⟨s₀, s, hs₀, hexec, hdelivered, events, hlog, hempty⟩

end Retsu
