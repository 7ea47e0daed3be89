/-
  What concurrent transactions pass over, and why.

  Dequeues and cleaners skip rows that others have locked, so they need not take the first row
  that their snapshot shows.  This file says when they do not: a row that is left behind was,
  after the snapshot was taken and before the commit, locked by another transaction in flight, or
  no longer what the statement looks for.
-/
import Retsu.AcknowledgeSafety
import Retsu.ConcurrentDequeue
import Retsu.Concurrency.Overtaking
import Retsu.Reports

namespace Retsu

open Relational Concurrency

variable {order : TriggerOrder} {s₀ s s' : System} {tid : Nat} {t t' : Txn}

/-! ## Reasons -/

/-- In `s₀` the transaction takes its snapshot, and from there the run goes on to `s`. -/
def TookSnapshot (order : TriggerOrder) (s₀ : System) (tid : Nat) (s : System) : Prop :=
  ∃ s₁, Reachable order s₀ ∧ step order s₀ (.snapshot tid) = some s₁ ∧
    Execution (step order) anyAction s₁ s

theorem TookSnapshot.reachable (h : TookSnapshot order s₀ tid s) : Reachable order s₀ := by
  obtain ⟨s₁, h₀, -⟩ := h
  exact h₀

theorem TookSnapshot.run (h : TookSnapshot order s₀ tid s) :
    Execution (step order) anyAction s₀ s := by
  obtain ⟨s₁, -, hsnapshot, hrun⟩ := h
  exact (Execution.step .refl trivial hsnapshot).trans hrun

def System.InFlight (s : System) (tid : Nat) : Prop :=
  ∃ t, s.txns tid = some t ∧ t.phase.active

/-- On the way from `s₀` to `s`, while the transaction was in flight, another one in flight had
    locked the message, or it was not there as the statement wants it. -/
def PassedOver (order : TriggerOrder) (s₀ s : System) (tid : Nat) (id : Uuid)
    (wanted : QueueMessage → Bool) : Prop :=
  ∃ s₁, Execution (step order) anyAction s₀ s₁ ∧ Execution (step order) anyAction s₁ s ∧
    s₁.InFlight tid ∧
    ((∃ other ≠ tid, s₁.InFlight other ∧ s₁.locks (.message id) = some other) ∨
      ∀ m ∈ s₁.db.queueMessage, m.id = id → wanted m = false)

/-- The same, of any row, for the selection that visits it. -/
def Txn.Excused (order : TriggerOrder) (s₀ s : System) (tid : Nat) (t : Txn)
    (selection : Selection) (id : Uuid) : Prop :=
  ∃ s₁, Execution (step order) anyAction s₀ s₁ ∧ Execution (step order) anyAction s₁ s ∧
    s₁.InFlight tid ∧
    (s₁.locks.blocks tid (t.lock id) = true ∨ t.recheck s₁.db selection id ≠ some true)

theorem Txn.Excused.later {selection : Selection} {id : Uuid}
    (h : t.Excused order s₀ s tid selection id) (hrun : Execution (step order) anyAction s s') :
    t.Excused order s₀ s' tid selection id := by
  obtain ⟨s₁, hbefore, hafter, hflight, hreason⟩ := h
  exact ⟨s₁, hbefore, hafter.trans hrun, hflight, hreason⟩

/-- An excuse is one for whatever the transaction does later. -/
theorem Txn.Excused.congr {selection : Selection} {id : Uuid}
    (h : t.Excused order s₀ s tid selection id) (hop : t'.op = t.op) (hnow : t'.now = t.now)
    (hqueue : t'.queue = t.queue) : t'.Excused order s₀ s tid selection id := by
  obtain ⟨s₁, hbefore, hafter, hflight, hreason⟩ := h
  have hlock : t'.lock id = t.lock id := by simp only [Txn.lock, hop]
  have hrecheck : t'.recheck s₁.db selection id = t.recheck s₁.db selection id := by
    have hwants : t'.wants selection = t.wants selection := by
      funext m
      simp only [Txn.wants, hop, hnow, hqueue]
    have hwantsDeadLetter : t'.wantsDeadLetter selection = t.wantsDeadLetter selection := by
      funext d
      simp only [Txn.wantsDeadLetter, hop, hnow]
    simp only [Txn.recheck, hop, hwants, hwantsDeadLetter]
  exact ⟨s₁, hbefore, hafter, hflight, by rwa [hlock, hrecheck]⟩

theorem Txn.Excused.passedOver (h₀ : Reachable order s₀) {selection : Selection} {id : Uuid}
    (hpurge : t.op.isPurge = false) (h : t.Excused order s₀ s tid selection id) :
    PassedOver order s₀ s tid id (t.wants selection) := by
  obtain ⟨s₁, hbefore, hafter, hflight, hreason⟩ := h
  have hinv := Reachable.inv (Execution.trans h₀ hbefore)
  refine ⟨s₁, hbefore, hafter, hflight,
    hreason.imp (fun hblocked => ?_) fun hrecheck m hm hid => ?_⟩
  · obtain ⟨other, hholder, hne⟩ := LockTable.blocks_eq_true.mp hblocked
    refine ⟨other, hne, hinv.holder _ other hholder, ?_⟩
    rwa [Txn.lock, hpurge] at hholder
  · by_contra hwanted
    rw [Bool.not_eq_false] at hwanted
    exact hrecheck ((Txn.recheck_message hinv.valid hpurge).mpr ⟨m, hm, hid, hwanted⟩)

/-! ## Scans -/

/-- The statement had its snapshot in `s₀`, and what its scans have left behind since is excused. -/
structure Txn.Scanned (order : TriggerOrder) (s₀ s : System) (tid : Nat) (t : Txn) : Prop where
  reachable : Reachable order s₀
  run : Execution (step order) anyAction s₀ s
  queue : t.queue = t.op.target s₀.db
  scan : ∀ selection, (t.scan selection).Accounts (t.op.select s₀.db t.now selection).pending
    (t.Excused order s₀ s tid selection)
  limit : ∀ selection, (t.scan selection).WellFormed (t.op.select s₀.db t.now selection).wanted
  ended : t.phase ≠ .selecting → ∀ selection, (t.scan selection).next = none

theorem Txn.Scanned.later (h : t.Scanned order s₀ s tid)
    (hrun : Execution (step order) anyAction s s') : t.Scanned order s₀ s' tid :=
  { h with
    run := h.run.trans hrun
    scan := fun selection => (h.scan selection).mono fun _ hexcused => hexcused.later hrun }

/-- The transaction goes on with the rows it has. -/
theorem Txn.Scanned.goesOn (h : t.Scanned order s₀ s tid)
    (hrun : Execution (step order) anyAction s s') (hop : t'.op = t.op) (hnow : t'.now = t.now)
    (hqueue : t'.queue = t.queue) (hscan : t'.scan = t.scan)
    (hended : ∀ selection, (t.scan selection).next = none) : t'.Scanned order s₀ s' tid where
  reachable := h.reachable
  run := h.run.trans hrun
  queue := by rw [hqueue, hop, h.queue]
  scan selection := by
    rw [hscan, hop, hnow]
    exact (h.scan selection).mono fun _ hexcused => (hexcused.later hrun).congr hop hnow hqueue
  limit selection := by
    rw [hscan, hop, hnow]
    exact h.limit selection
  ended _ selection := by
    rw [hscan]
    exact hended selection

/-- The transaction has visited a row. -/
theorem Txn.Scanned.visits (h : t.Scanned order s₀ s tid)
    (hrun : Execution (step order) anyAction s s') (hphase : t.phase = .selecting)
    (selection : Selection) {scan : Scan Uuid}
    (hscan : scan.Accounts (t.op.select s₀.db t.now selection).pending
      (t.Excused order s₀ s' tid selection))
    (hlimit : scan.WellFormed (t.op.select s₀.db t.now selection).wanted) :
    (t.setScan selection scan).Scanned order s₀ s' tid where
  reachable := h.reachable
  run := h.run.trans hrun
  queue := h.queue
  scan other := by
    by_cases hother : other = selection
    · subst hother
      rw [t.setScan_self]
      exact hscan.mono fun _ hexcused => hexcused.congr rfl rfl rfl
    · rw [t.setScan_other scan hother]
      exact (h.scan other).mono fun _ hexcused => (hexcused.later hrun).congr rfl rfl rfl
  limit other := by
    by_cases hother : other = selection
    · subst hother
      rw [t.setScan_self]
      exact hlimit
    · rw [t.setScan_other scan hother]
      exact h.limit other
  ended hended := absurd hphase hended

/-- The transaction has just had its snapshot, and has visited nothing yet. -/
theorem scanned_takeSnapshot {s₁ : System} (h : Reachable order s)
    (hsnapshot : step order s (.snapshot tid) = some s₁) :
    ∃ t, s₁.txns tid = some t ∧ t.phase = .selecting ∧ t.Scanned order s s₁ tid := by
  have hone : Execution (step order) anyAction s s₁ := .step .refl trivial hsnapshot
  cases step_cases hsnapshot with
  | @snapshot _ t ht hphase =>
    have hpicked := Operation.select_picked s.db t.now t.op
    obtain ⟨⟨deletes, hdeletes⟩, leases, -, hleases⟩ :=
      t.op.select_wellFormed (Reachable.inv h).valid t.now
    have hlimit : ∀ {selection limit}, (t.op.select s.db t.now selection).WellFormed limit →
        (t.op.select s.db t.now selection).WellFormed
          (t.op.select s.db t.now selection).wanted := by
      intro selection limit hwellFormed
      have hwanted := hwellFormed.limit
      rw [hpicked, List.length_nil, Nat.zero_add] at hwanted
      rwa [hwanted]
    refine ⟨_, s.setTxn_self tid _, rfl, h, hone, rfl, fun selection => .unvisited
      (hpicked selection), fun selection => ?_, fun hended => absurd rfl hended⟩
    cases selection with
    | delete => exact hlimit hdeletes
    | lease => exact hlimit hleases

/-- **Whatever a statement has left behind is excused**, from its snapshot to the end. -/
theorem TookSnapshot.scanned (h : TookSnapshot order s₀ tid s) :
    ∃ t, s.txns tid = some t ∧ t.phase ≠ .started ∧
      (t.phase ≠ .aborted → t.Scanned order s₀ s tid) := by
  obtain ⟨s₁, h₀, hsnapshot, hrun⟩ := h
  have hfirst : Execution (step order) anyAction s₀ s₁ := .step .refl trivial hsnapshot
  obtain ⟨t₁, ht₁, hphase₁, hscanned₁⟩ := scanned_takeSnapshot h₀ hsnapshot
  refine hrun.invariant (I := fun s => ∃ t, s.txns tid = some t ∧ t.phase ≠ .started ∧
    (t.phase ≠ .aborted → t.Scanned order s₀ s tid))
    ⟨t₁, ht₁, by simp [hphase₁], fun _ => hscanned₁⟩ fun s a s' hrun ih _ hstep => ?_
  obtain ⟨t, ht, hstarted, hscanned⟩ := ih
  have hone : Execution (step order) anyAction s s' := .step .refl trivial hstep
  -- another transaction goes on
  have hother : s'.txns tid = s.txns tid → ∃ t, s'.txns tid = some t ∧ t.phase ≠ .started ∧
      (t.phase ≠ .aborted → t.Scanned order s₀ s' tid) := fun hsame =>
    ⟨t, hsame.trans ht, hstarted, fun haborted => (hscanned haborted).later hone⟩
  cases step_cases hstep with
  | tick => exact hother rfl
  | @start actor op hidle =>
    refine hother (s.setTxn_other _ ?_)
    rintro rfl
    rw [ht] at hidle
    simp at hidle
  | @snapshot actor u hu hphase =>
    refine hother (s.setTxn_other _ ?_)
    rintro rfl
    obtain rfl := Option.some.inj (ht.symm.trans hu)
    exact hstarted hphase
  | @pass actor u selection id hu hphase hnext hreason =>
    by_cases hactor : tid = actor
    · subst hactor
      obtain rfl := Option.some.inj (ht.symm.trans hu)
      have hold := hscanned (by simp [hphase])
      have hexcused : ∀ {u}, Execution (step order) anyAction s u →
          t.Excused order s₀ u tid selection id := fun hu =>
        ⟨s, hold.run, hu, ⟨t, ht, by rw [hphase]; rfl⟩,
          hreason.imp And.left fun hgone => by simp [hgone.2]⟩
      exact ⟨_, s.setTxn_self tid _, hstarted, fun _ => hold.visits hone hphase selection
        (((hold.scan selection).mono fun _ h => h.later hone).pass hnext (hexcused hone))
        (hold.limit selection).pass⟩
    · exact hother (s.setTxn_other _ hactor)
  | @reject actor u selection id hu hphase hnext hfree hrecheck =>
    by_cases hactor : tid = actor
    · subst hactor
      obtain rfl := Option.some.inj (ht.symm.trans hu)
      have hold := hscanned (by simp [hphase])
      have hexcused : ∀ {u}, Execution (step order) anyAction s u →
          t.Excused order s₀ u tid selection id := fun hu =>
        ⟨s, hold.run, hu, ⟨t, ht, by rw [hphase]; rfl⟩, Or.inr (by simp [hrecheck])⟩
      exact ⟨_, s.setTxn_self tid _, hstarted, fun _ => hold.visits hone hphase selection
        (((hold.scan selection).mono fun _ h => h.later hone).pass hnext (hexcused hone))
        (hold.limit selection).pass⟩
    · exact hother (s.setTxn_other _ hactor)
  | @pick actor u selection id hu hphase hnext hfree hrecheck =>
    by_cases hactor : tid = actor
    · subst hactor
      obtain rfl := Option.some.inj (ht.symm.trans hu)
      have hold := hscanned (by simp [hphase])
      exact ⟨_, s.setTxn_self tid _, hstarted, fun _ => hold.visits hone hphase selection
        (((hold.scan selection).mono fun _ h => h.later hone).pick hnext)
        ((hold.limit selection).pick hnext)⟩
    · exact hother (s.setTxn_other _ hactor)
  | @count actor u hu hphase hselected =>
    by_cases hactor : tid = actor
    · subst hactor
      obtain rfl := Option.some.inj (ht.symm.trans hu)
      have hold := hscanned (by simp [hphase])
      exact ⟨_, s.setTxn_self tid _, by simp, fun _ => hold.goesOn hone rfl rfl rfl rfl hselected⟩
    · exact hother (s.setTxn_other _ hactor)
  | @lockCounter actor u key rest hu hphase =>
    by_cases hactor : tid = actor
    · subst hactor
      obtain rfl := Option.some.inj (ht.symm.trans hu)
      have hold := hscanned (by simp [hphase])
      exact ⟨_, s.setTxn_self tid _, hstarted, fun _ => hold.goesOn hone rfl rfl rfl rfl
        (hold.ended (by simp [hphase]))⟩
    · exact hother (s.setTxn_other _ hactor)
  | @commit actor u hu hphase =>
    by_cases hactor : tid = actor
    · subst hactor
      obtain rfl := Option.some.inj (ht.symm.trans hu)
      have hold := hscanned (by simp [hphase])
      exact ⟨_, s.setTxn_self tid _, by simp, fun _ => hold.goesOn hone rfl rfl rfl rfl
        (hold.ended (by simp [hphase]))⟩
    · exact hother (s.setTxn_other _ hactor)
  | @abort actor u hu hactive =>
    by_cases hactor : tid = actor
    · subst hactor
      exact ⟨_, s.setTxn_self tid _, by simp, fun haborted => absurd rfl haborted⟩
    · exact hother (s.setTxn_other _ hactor)

/-- The transaction has its snapshot. -/
def System.HasSnapshot (s : System) (tid : Nat) : Prop :=
  ∃ t, s.txns tid = some t ∧ t.phase ≠ .started ∧ t.phase ≠ .aborted

/-- A transaction has its snapshot when it has taken it. -/
theorem Step.takesSnapshot {a : Action} (hstep : Step order s a s') (hno : ¬s.HasSnapshot tid)
    (hyes : s'.HasSnapshot tid) : a = .snapshot tid := by
  obtain ⟨t, ht, hstarted, haborted⟩ := hyes
  have hset : ∀ {actor : Nat} {u : Txn}, s'.txns = (s.setTxn actor u).txns →
      (tid = actor → u.phase ≠ .started → u.phase ≠ .aborted → s.HasSnapshot tid) → False := by
    intro actor u htxns hu
    rw [htxns] at ht
    rcases System.setTxn_eq_some.mp ht with ⟨rfl, rfl⟩ | ⟨-, hold⟩
    · exact hno (hu rfl hstarted haborted)
    · exact hno ⟨t, hold, hstarted, haborted⟩
  cases hstep with
  | tick => exact absurd ⟨t, ht, hstarted, haborted⟩ hno
  | start => exact (hset rfl fun _ hstarted => absurd rfl hstarted).elim
  | @snapshot actor u hu hphase =>
    by_cases hactor : tid = actor
    · rw [hactor]
    · exact absurd ⟨t, (s.setTxn_other _ hactor).symm.trans ht, hstarted, haborted⟩ hno
  | pass hu hphase | reject hu hphase | pick hu hphase | count hu hphase | lockCounter hu hphase
  | commit hu hphase =>
    refine (hset rfl fun hactor _ _ => ?_).elim
    subst hactor
    exact ⟨_, hu, by simp [hphase], by simp [hphase]⟩
  | abort => exact (hset rfl fun _ _ haborted => absurd rfl haborted).elim

/-- Every transaction that has its snapshot has taken it in some state. -/
theorem exists_tookSnapshot (h : Reachable order s) (hsnapshot : s.HasSnapshot tid) :
    ∃ s₀, TookSnapshot order s₀ tid s := by
  obtain ⟨s₀, a, s₁, h₀, -, hstep, hno, hyes, hrun⟩ :=
    Execution.turning (P := fun s : System => s.HasSnapshot tid) h
      (by simp [System.HasSnapshot, System.initial]) hsnapshot
  obtain rfl := (step_cases hstep).takesSnapshot hno hyes
  exact ⟨s₀, s₁, h₀, hstep, hrun⟩

/-! ## Commits -/

/-- A dequeue that answers has delivered the message that it has picked, or none. -/
theorem Txn.Inv.delivered (h : t.Inv s tid) (hvalid : s.db.Valid) {queueId receiptHandle : Uuid}
    (hop : t.op = .dequeueMessage queueId receiptHandle) {outcome : DequeueMessageOutcome}
    (hresponse : (t.execute order s.db).2 = .dequeueMessage outcome) :
    (Response.dequeueMessage outcome).delivered =
      if t.queue = none then none else (t.scan .lease).picked.head? := by
  cases hqueue : t.queue with
  | none =>
    simp only [Txn.execute, hop, hqueue] at hresponse
    rw [if_pos rfl]
    have hnone : (respond .dequeueMessage (decodeDequeue receiptHandle
        (dequeueMessageRow none none 0))).delivered = none := rfl
    rwa [hresponse] at hnone
  | some queue =>
    obtain ⟨exhausted, candidate, hsel, hexhausted, hcandidate, -⟩ :=
      h.dequeueSelection hvalid hqueue
    simp only [Txn.execute, hop, hqueue] at hresponse
    rw [← hexhausted, ← hcandidate] at hresponse
    rw [if_neg (by simp), ← hcandidate]
    cases hexec : executeDequeue order s.db queue receiptHandle t.now (exhausted.map (·.id))
        (candidate.map (·.id)) with
    | error e =>
      rw [hexec] at hresponse
      simp [settle] at hresponse
    | ok result =>
      obtain ⟨hfresh, htimely⟩ := executeDequeue_inv order receiptHandle hvalid hsel hexec
      obtain ⟨stored, shards, delivered, hdelivers, hrun⟩ :=
        executeDequeue_delivers order receiptHandle hvalid hsel hfresh htimely
      rw [hrun] at hresponse
      obtain rfl := Response.dequeueMessage.inj hresponse
      exact hdelivers.delivered

/-- An expired cleanup removes the rows that it has picked, and counts them. -/
theorem Txn.Inv.expires (h : t.Inv s tid) (hvalid : s.db.Valid) {batchSize : UInt32}
    (hop : t.op = .processExpiredMessages batchSize) :
    (∃ summary, (t.execute order s.db).2 = .processExpiredMessages summary ∧
      summary.processed = (t.scan .delete).picked.length) ∧
    (t.execute order s.db).1.queueDeadLetterMessage = s.db.queueDeadLetterMessage ∧
    ∀ id ∈ (t.scan .delete).picked, (∃ m ∈ s.db.queueMessage, m.id = id) ∧
      ∀ m ∈ (t.execute order s.db).1.queueMessage, m.id ≠ id := by
  obtain ⟨expired, hids, hexpired⟩ := h.rows hvalid (by rw [hop]; rfl) .delete
  have hlive : ∀ m ∈ expired, m ∈ s.db.queueMessage := fun m hm => (hexpired m hm).1
  obtain ⟨db', summary, hrun, heffect, -⟩ := executeExpired_effect t.queue.toList hvalid t.now
    batchSize fun m hm => ⟨hlive m hm, by simpa [Txn.wants, hop] using (hexpired m hm).2⟩
  have hexec : t.execute order s.db = (db', .processExpiredMessages summary) := by
    simp only [Txn.execute, hop]
    rw [← hids, hrun]
  -- the statement deletes by identifiers
  obtain ⟨hdeleted, harchive⟩ : db'.queueMessage =
      s.db.queueMessage.filter (fun m => m.id ∉ (t.scan .delete).picked) ∧
        db'.queueDeadLetterMessage = s.db.queueDeadLetterMessage := by
    obtain ⟨shards, hok, -⟩ := deleteStatement_exec hvalid (expired.map (·.id))
    rw [executeExpired, hok] at hrun
    have hdb := congrArg (fun result : Database × Response =>
      (result.1.queueMessage, result.1.queueDeadLetterMessage)) hrun
    rw [← hids]
    exact Prod.mk.inj hdb.symm
  rw [hexec]
  refine ⟨⟨summary, rfl, ?_⟩, harchive, fun id hid => ⟨?_, fun m hm hmid => ?_⟩⟩
  · obtain ⟨hprocessed, -⟩ := heffect.expired_report hvalid
    have hnodup : expired.Nodup := List.Nodup.of_map (·.id) (hids ▸ h.deletes_nodup)
    rw [hprocessed, removedMessages, hdeleted, removedRows_filter, ← hids, List.length_map]
    exact (filter_mem_keys_perm hvalid.messages.ids hlive hnodup).length_eq
  · obtain ⟨m, hm, rfl⟩ := List.mem_map.mp (hids ▸ hid)
    exact ⟨m, hlive m hm, rfl⟩
  · rw [hdeleted] at hm
    simp [hmid, hid] at hm

/-- What a transaction that has committed has told. -/
structure System.Told (s : System) (t : Txn) (response : Response) : Prop where
  dequeue : ∀ queueId receiptHandle outcome, t.op = .dequeueMessage queueId receiptHandle →
    response = .dequeueMessage outcome →
    response.delivered = if t.queue = none then none else (t.scan .lease).picked.head?
  notFound : ∀ queueId receiptHandle, t.op = .dequeueMessage queueId receiptHandle →
    response = .dequeueMessage .queueNotFound → t.queue = none
  expired : ∀ batchSize, t.op = .processExpiredMessages batchSize →
    (∃ summary, response = .processExpiredMessages summary ∧
      summary.processed = (t.scan .delete).picked.length) ∧
    ∀ id ∈ (t.scan .delete).picked, s.Gone id

theorem told_of_reachable (h : Reachable order s) : ∀ tid t response, s.txns tid = some t →
    t.phase = .committed response → s.Told t response := by
  refine h.invariant (I := fun s => ∀ tid t response, s.txns tid = some t →
    t.phase = .committed response → s.Told t response) (by simp [System.initial])
    fun s a s' hrun ih _ hstep => ?_
  have hinv := Reachable.inv hrun
  have hstep := step_cases hstep
  intro tid t response ht hphase
  rcases hstep.committed_origin ht hphase with hold | ⟨t₀, ht₀, hactive, rfl⟩
  · obtain ⟨hdequeue, hnotFound, hexpired⟩ := ih tid t response hold hphase
    refine ⟨hdequeue, hnotFound, fun batchSize hop => ?_⟩
    obtain ⟨hsummary, hgone⟩ := hexpired batchSize hop
    exact ⟨hsummary, fun id hid => (hgone id hid).step hinv hstep⟩
  · have hthis := hinv.txn tid t₀ ht₀ hactive
    obtain rfl := Option.some.inj ((s.setTxn_self tid _).symm.trans ht)
    obtain rfl : (s.commitEvent order t₀).response = response := Phase.committed.inj hphase
    constructor
    · intro queueId receiptHandle outcome hop hresponse
      rw [hresponse]
      exact hthis.delivered hinv.valid hop hresponse
    · intro queueId receiptHandle hop hresponse
      have hanswers := hthis.answers hinv.valid order hop
      rw [show (t₀.execute order s.db).2 = _ from hresponse] at hanswers
      cases hanswers with
      | notFound hqueue => exact hqueue
      | answered _ hfound => exact absurd rfl hfound
    · intro batchSize hop
      obtain ⟨hsummary, harchive, hpicked⟩ := @Txn.Inv.expires order _ _ _ hthis hinv.valid _ hop
      refine ⟨hsummary, fun id hid => ?_⟩
      obtain ⟨⟨m, hm, rfl⟩, hafter⟩ := hpicked id hid
      refine ⟨(hinv.live_spent hm).step hstep, hafter, fun d hd => ?_⟩
      exact hinv.disjoint m hm d (harchive ▸ hd)

/-! ## What is passed over -/

/-- Of two messages of these places, the first one is delivered first, unless it is less urgent. -/
theorem deliveryOrder_lt {m m' : QueueMessage} (hpriority : m'.priority ≤ m.priority)
    (horder : m.enqueueOrder < m'.enqueueOrder) : deliveryOrder m < deliveryOrder m' := by
  rw [deliveryOrder, deliveryOrder, Prod.Lex.toLex_lt_toLex]
  rcases lt_or_eq_of_le hpriority with hlt | heq
  · left
    show -m.priority < -m'.priority
    omega
  · exact Or.inr ⟨congrArg (- ·) heq.symm, horder⟩

/-- What a dequeue has passed over for the message that it has picked, or before it gave up. -/
theorem Txn.Scanned.passes (h : t.Scanned order s₀ s tid) {queueId receiptHandle : Uuid}
    (hop : t.op = .dequeueMessage queueId receiptHandle) {queue : QueueRow}
    (htarget : targetQueue s₀.db queueId = some queue)
    (hended : (t.scan .lease).next = none) :
    (∀ id, (t.scan .lease).picked.head? = some id →
      ∃ m ∈ s₀.db.queueMessage, m.id = id ∧ isCandidate queue t.now m) ∧
    ∀ m ∈ s₀.db.queueMessage, isCandidate queue t.now m →
      (∀ m' ∈ s₀.db.queueMessage, (t.scan .lease).picked.head? = some m'.id →
        deliveryOrder m < deliveryOrder m') →
      PassedOver order s₀ s tid m.id (isCandidate queue t.now) := by
  have hqueue : t.queue = some queue := by
    rw [h.queue, hop]
    exact htarget
  have hselect : t.op.select s₀.db t.now .lease =
      .start ((deliveryCandidates s₀.db queue t.now).map (·.id)) 1 := by
    simp only [hop, Operation.select, htarget]
  have hscan := h.scan .lease
  have hlimit := h.limit .lease
  rw [hselect] at hscan hlimit
  simp only [Scan.start_pending, Scan.start_wanted] at hscan hlimit
  have hwants : t.wants .lease = isCandidate queue t.now := by
    funext m
    simp only [Txn.wants, hop, hqueue, Option.any_some]
  have hmem : ∀ m, m ∈ deliveryCandidates s₀.db queue t.now ↔
      m ∈ s₀.db.queueMessage ∧ isCandidate queue t.now m := by
    intro m
    rw [deliveryCandidates, mem_orderBy, List.mem_filter]
  have hvalid := (Reachable.inv h.reachable).valid
  have hids : ((deliveryCandidates s₀.db queue t.now).map (·.id)).Nodup := by
    obtain ⟨-, limit, -, hrows⟩ := t.op.select_wellFormed hvalid t.now
    rw [hselect] at hrows
    exact hrows.rows
  have hpicks : ∀ id, (t.scan .lease).picked.head? = some id →
      ∃ m ∈ deliveryCandidates s₀.db queue t.now, m.id = id := fun id hid =>
    List.mem_map.mp (hscan.picked_mem (List.mem_of_mem_head? hid))
  have hexcused : ∀ id, t.Excused order s₀ s tid .lease id →
      PassedOver order s₀ s tid id (isCandidate queue t.now) := fun id hexcused =>
    hwants ▸ hexcused.passedOver h.reachable (by rw [hop]; rfl)
  refine ⟨fun id hid => ?_, fun m hm hwanted hbefore => hexcused m.id ?_⟩
  · obtain ⟨m, hm, hmid⟩ := hpicks id hid
    obtain ⟨hlive, hwanted⟩ := (hmem m).mp hm
    exact ⟨m, hlive, hmid, hwanted⟩
  · have hcandidate := (hmem m).mpr ⟨hm, hwanted⟩
    cases hhead : (t.scan .lease).picked.head? with
    | none =>
      have hnone := List.head?_eq_none_iff.mp hhead
      have hall := hscan.complete hlimit hended (by rw [hnone]; exact Nat.one_pos)
      simpa [hnone] using hall m.id (List.mem_map_of_mem hcandidate)
    | some id =>
      obtain ⟨m', hm', rfl⟩ := hpicks id hhead
      have hless := hbefore m' ((hmem m').mp hm').1 hhead
      refine (hscan.overtaken hids (orderBy_pairwise _ _) hcandidate hm'
        (List.mem_of_mem_head? hhead) (not_le_of_gt hless)).resolve_left fun hpicked => ?_
      -- only one message has been picked
      obtain ⟨rest, hrest⟩ := List.head?_eq_some_iff.mp hhead
      have hone := hlimit.picked_length
      rw [hrest] at hpicked hone
      obtain rfl : rest = [] := by simpa using hone
      obtain rfl := eq_of_key_eq hvalid.messages.ids hm ((hmem m').mp hm').1
        (List.mem_singleton.mp hpicked)
      exact lt_irrefl _ hless

/-- What a dequeue that has answered has delivered of its snapshot, and passed over since. -/
theorem TookSnapshot.passes (h : TookSnapshot order s₀ tid s) (hs : Reachable order s)
    (ht : s.txns tid = some t) {outcome : DequeueMessageOutcome}
    (hphase : t.phase = .committed (.dequeueMessage outcome)) {queueId receiptHandle : Uuid}
    (hop : t.op = .dequeueMessage queueId receiptHandle) :
    (∀ id, (Response.dequeueMessage outcome).delivered = some id →
      ∃ queue, targetQueue s₀.db queueId = some queue ∧
        ∃ m ∈ s₀.db.queueMessage, m.id = id ∧ isCandidate queue t.now m) ∧
    ∀ queue, targetQueue s₀.db queueId = some queue →
      ∀ m ∈ s₀.db.queueMessage, isCandidate queue t.now m →
        (∀ m' ∈ s₀.db.queueMessage, (Response.dequeueMessage outcome).delivered = some m'.id →
          deliveryOrder m < deliveryOrder m') →
        PassedOver order s₀ s tid m.id (isCandidate queue t.now) := by
  obtain ⟨t', ht', -, hscanned⟩ := h.scanned
  obtain rfl := Option.some.inj (ht.symm.trans ht')
  have hscanned := hscanned (by simp [hphase])
  have hqueue := hscanned.queue
  rw [hop] at hqueue
  have hdelivered := (told_of_reachable hs tid t _ ht hphase).dequeue queueId receiptHandle outcome
    hop rfl
  rw [hdelivered]
  have hpasses := fun queue (htarget : targetQueue s₀.db queueId = some queue) =>
    hscanned.passes hop htarget (hscanned.ended (by simp [hphase]) .lease)
  constructor
  · intro id hid
    cases htarget : targetQueue s₀.db queueId with
    | none =>
      rw [hqueue.trans htarget, if_pos rfl] at hid
      simp at hid
    | some queue =>
      rw [hqueue.trans htarget, if_neg (by simp)] at hid
      exact ⟨queue, rfl, (hpasses queue htarget).1 id hid⟩
  · intro queue htarget
    rw [hqueue.trans htarget, if_neg (by simp)]
    exact (hpasses queue htarget).2

/-- **Nothing is passed over without a reason.**  In every interleaving, a transaction that has
    committed has taken a snapshot, and with whatever it has found there: a dequeue that has answered
    delivers a message that is deliverable in its snapshot; a deliverable message that comes before
    it was, between snapshot and commit, locked by another transaction in flight or no longer
    deliverable; and so was every one, if the dequeue has delivered none.  A cleanup that reports
    less than its batch has left no expired message of its snapshot without such a reason. -/
theorem passed_over_for_a_reason (h : Reachable order s) (ht : s.txns tid = some t)
    {response : Response} (hphase : t.phase = .committed response) :
    (∃ s₀, TookSnapshot order s₀ tid s) ∧
    ∀ s₀, TookSnapshot order s₀ tid s →
      (∀ queueId receiptHandle outcome, t.op = .dequeueMessage queueId receiptHandle →
        response = .dequeueMessage outcome →
        (∀ id, response.delivered = some id → ∃ queue, targetQueue s₀.db queueId = some queue ∧
          ∃ m ∈ s₀.db.queueMessage, m.id = id ∧ isCandidate queue t.now m) ∧
        ∀ queue, targetQueue s₀.db queueId = some queue →
          ∀ m ∈ s₀.db.queueMessage, isCandidate queue t.now m →
            (∀ m' ∈ s₀.db.queueMessage, response.delivered = some m'.id →
              deliveryOrder m < deliveryOrder m') →
            PassedOver order s₀ s tid m.id (isCandidate queue t.now)) ∧
      ∀ batchSize, t.op = .processExpiredMessages batchSize →
        ∃ summary, response = .processExpiredMessages summary ∧
          (summary.processed < batchSize.toNat → ∀ m ∈ s₀.db.queueMessage, isExpired t.now m →
            s.Gone m.id ∨ PassedOver order s₀ s tid m.id (isExpired t.now)) := by
  refine ⟨exists_tookSnapshot h ⟨t, ht, by simp [hphase], by simp [hphase]⟩, fun s₀ htook =>
    ⟨?_, fun batchSize hop => ?_⟩⟩
  · rintro queueId receiptHandle outcome hop rfl
    exact htook.passes h ht hphase hop
  · obtain ⟨t', ht', -, hscanned⟩ := htook.scanned
    obtain rfl := Option.some.inj (ht.symm.trans ht')
    have hscanned := hscanned (by simp [hphase])
    obtain ⟨⟨summary, rfl, hprocessed⟩, hgone⟩ :=
      (told_of_reachable h tid t response ht hphase).expired batchSize hop
    have hended := hscanned.ended (by simp [hphase])
    refine ⟨summary, rfl, fun hshort m hm hwanted => ?_⟩
    have hselect : t.op.select s₀.db t.now .delete =
        .start ((expiredCandidates s₀.db t.now).map (·.id)) batchSize.toNat := by
      simp only [hop, Operation.select]
    have hscan := hscanned.scan .delete
    have hlimit := hscanned.limit .delete
    rw [hselect] at hscan hlimit
    simp only [Scan.start_pending, Scan.start_wanted] at hscan hlimit
    have hcandidate : m ∈ expiredCandidates s₀.db t.now := by
      rw [expiredCandidates, mem_orderBy, List.mem_filter]
      exact ⟨hm, hwanted⟩
    have hwants : t.wants .delete = isExpired t.now := by
      funext other
      simp only [Txn.wants, hop]
    refine (hscan.complete hlimit (hended .delete) (hprocessed ▸ hshort) m.id
      (List.mem_map_of_mem hcandidate)).imp (hgone m.id) fun hexcused => ?_
    exact hwants ▸ hexcused.passedOver hscanned.reachable (by rw [hop]; rfl)

/-- Two dequeues at the same time, before the second one takes its snapshot. -/
def passedStart : List Action :=
  [.start 3 (.dequeueMessage 1 11), .snapshot 3, .start 4 (.dequeueMessage 1 12)]

/-- The second one passes over the message that the first one has locked. -/
def passedOrder : List Action := [
  .visit 3 .lease, .visit 4 .lease, .visit 4 .lease, .count 4, .lockCounter 4, .commit 4]

/-- Message 8 is delivered although message 7 comes before it and is deliverable in the snapshot;
    there was a reason. -/
theorem passed_over_for_a_reason_passedOrder :
    ∃ (s₀ s : System) (t : Txn) (response : Response) (queue : QueueRow) (m : QueueMessage),
      TookSnapshot .deleteFirst s₀ 4 s ∧ s.txns 4 = some t ∧ t.phase = .committed response ∧
      response.delivered = some 8 ∧ targetQueue s₀.db 1 = some queue ∧ m ∈ s₀.db.queueMessage ∧
      m.id = 7 ∧ isCandidate queue t.now m ∧
      PassedOver .deleteFirst s₀ s 4 7 (isCandidate queue t.now) := by
  have hbefore : ((runActions .deleteFirst (twoQueued ++ passedStart)).bind fun s₀ =>
      (targetQueue s₀.db 1).map fun queue => s₀.db.queueMessage.map fun m =>
        (m.id, isCandidate queue 0 m, m.priority, m.enqueueOrder)) =
          some [(7, true, 3, 1), (8, true, 3, 2)] := by
    decide +kernel
  have hrun : (runActions .deleteFirst (twoQueued ++ passedStart ++ .snapshot 4 :: passedOrder)).map
      (fun s => (s.txns 4).map fun t => (t.op.dequeuesFrom 1, t.now, t.phase)) =
        some (some (true, 0, .committed (.dequeueMessage
          (.dequeued 8 "order" .high 12 1 "orders" 0)))) := by
    decide +kernel
  obtain ⟨s₀, hs₀, hseen₀⟩ := Option.bind_eq_some_iff.mp hbefore
  obtain ⟨queue, htarget, hrows⟩ := Option.map_eq_some_iff.mp hseen₀
  obtain ⟨m, rest, hmessages, hm, hrest⟩ := List.map_eq_cons_iff.mp hrows
  obtain ⟨m', rest', rfl, hm', hnil⟩ := List.map_eq_cons_iff.mp hrest
  obtain rfl := List.map_eq_nil_iff.mp hnil
  simp only [Prod.mk.injEq] at hm hm'
  obtain ⟨s, hs, hseen⟩ := Option.map_eq_some_iff.mp hrun
  obtain ⟨t, ht, hthis⟩ := Option.map_eq_some_iff.mp hseen
  obtain ⟨hop, hnow, hphase⟩ : t.op.dequeuesFrom 1 = true ∧ t.now = 0 ∧ t.phase = _ := by
    simpa only [Prod.mk.injEq] using hthis
  obtain ⟨receiptHandle, hop⟩ := Operation.dequeuesFrom_iff.mp hop
  have hreachable := reachable_of_runActions hs
  obtain ⟨s₁, -, hsnapshot, hafter⟩ := runAllowed_cons.mp (runAllowed_rest hs₀ hs)
  have htook : TookSnapshot .deleteFirst s₀ 4 s :=
    ⟨s₁, reachable_of_runActions hs₀, hsnapshot, execution_of_runAllowed hafter⟩
  have hmem : m ∈ s₀.db.queueMessage := by
    rw [hmessages]
    exact List.mem_cons_self
  have hcandidate : isCandidate queue t.now m := hnow ▸ hm.2.1
  obtain ⟨-, hall⟩ := passed_over_for_a_reason hreachable ht hphase
  refine ⟨s₀, s, t, _, queue, m, htook, ht, hphase, rfl, htarget, hmem, hm.1, hcandidate, ?_⟩
  refine hm.1 ▸ ((hall s₀ htook).1 1 receiptHandle _ hop rfl).2 queue htarget m hmem hcandidate
    fun other hother hdelivered => ?_
  -- the other message is the one that has been delivered
  rw [hmessages, List.mem_cons, List.mem_singleton] at hother
  have hdelivered : 8 = other.id := Option.some.inj hdelivered
  rcases hother with rfl | rfl
  · rw [hm.1] at hdelivered
    simp at hdelivered
  · exact deliveryOrder_lt (by omega) (by omega)

end Retsu
