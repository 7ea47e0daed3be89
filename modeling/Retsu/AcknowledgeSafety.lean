/-
  Acknowledgements, in every interleaving.

  An acknowledge takes effect when its DELETE has decided what to delete: with the snapshot, if
  no row matches, or else when the statement has the lock of the row and has checked its newest
  version.  What it has decided then is what it answers and what its commit does, whatever
  happens in between.
-/
import Mathlib.Data.List.Triplewise
import Retsu.Conservation
import Retsu.LeaseExclusivity

namespace Retsu

open Relational Concurrency

variable {order : TriggerOrder} {s s' : System} {tid : Nat} {t : Txn}

/-! ## The moment an acknowledge takes effect -/

/-- The statement has visited every row that it could delete. -/
def Txn.Decided (t : Txn) : Prop :=
  match t.phase with
  | .selecting => (t.scan .delete).next = none
  | .counting | .committed _ => True
  | .started | .aborted => False

def System.Decided (s : System) (tid : Nat) : Prop := ∃ t, s.txns tid = some t ∧ t.Decided

/-- In a run that goes on to `s`, the step taken in `s₀` decides the transaction. -/
def TakesEffect (order : TriggerOrder) (s₀ : System) (tid : Nat) (s : System) : Prop :=
  ∃ a s₁, Reachable order s₀ ∧ ¬s₀.Decided tid ∧ step order s₀ a = some s₁ ∧ s₁.Decided tid ∧
    Execution (step order) anyAction s₁ s

/-- The message is live in the queue, with the receipt handle, and its lease runs at `now`. -/
def System.Acknowledgeable (s : System) (queueId messageId receiptHandle : Uuid) (now : Int) :
    Prop :=
  ∃ m ∈ s.db.queueMessage, isAcknowledgeable queueId messageId receiptHandle now m

/-- The scan of an acknowledge is one of the row it names, or of none. -/
theorem scan_single (h : Reachable order s) : ∀ tid t queueId messageId receiptHandle,
    s.txns tid = some t → t.op = .acknowledgeMessage queueId messageId receiptHandle →
      (t.scan .delete).Single messageId := by
  refine h.invariant (I := fun s => ∀ tid t queueId messageId receiptHandle,
    s.txns tid = some t → t.op = .acknowledgeMessage queueId messageId receiptHandle →
      (t.scan .delete).Single messageId)
    (by simp [System.initial]) fun s a s' hrun ih _ hstep => ?_
  have hinv := Reachable.inv hrun
  intro tid t' queueId messageId receiptHandle ht' hop
  cases step_cases hstep with
  | tick => exact ih tid t' _ _ _ ht' hop
  | start =>
    rcases System.setTxn_eq_some.mp ht' with ⟨rfl, rfl⟩ | ⟨-, ht'⟩
    · exact Or.inr ⟨rfl, Or.inl rfl⟩
    · exact ih tid t' _ _ _ ht' hop
  | snapshot ht hphase =>
    rcases System.setTxn_eq_some.mp ht' with ⟨rfl, rfl⟩ | ⟨-, ht'⟩
    · simp only at hop
      simp only [hop, Operation.select]
      rcases found_cases hinv.valid queueId messageId receiptHandle _ with hnone | ⟨m, hid, hone⟩
      · rw [hnone]
        exact Or.inr ⟨rfl, Or.inl rfl⟩
      · rw [hone, ← hid]
        exact Or.inl rfl
    · exact ih tid t' _ _ _ ht' hop
  | @pass _ t selection _ ht hphase hnext | @reject _ t selection _ ht hphase hnext =>
    rcases System.setTxn_eq_some.mp ht' with ⟨rfl, rfl⟩ | ⟨-, ht'⟩
    · have hold := ih _ t _ _ _ ht hop
      cases selection with
      | delete =>
        rw [t.setScan_self]
        exact hold.pass hnext
      | lease =>
        rw [t.setScan_other _ (by simp)]
        exact hold
    · exact ih tid t' _ _ _ ht' hop
  | @pick _ t selection _ ht hphase hnext =>
    rcases System.setTxn_eq_some.mp ht' with ⟨rfl, rfl⟩ | ⟨-, ht'⟩
    · have hold := ih _ t _ _ _ ht hop
      cases selection with
      | delete =>
        rw [t.setScan_self]
        exact hold.pick hnext
      | lease =>
        rw [t.setScan_other _ (by simp)]
        exact hold
    · exact ih tid t' _ _ _ ht' hop
  | @count _ t ht | @lockCounter _ t _ _ ht | @commit _ t ht | @abort _ t ht =>
    rcases System.setTxn_eq_some.mp ht' with ⟨rfl, rfl⟩ | ⟨-, ht'⟩
    · exact ih _ t _ _ _ ht hop
    · exact ih tid t' _ _ _ ht' hop

/-- **An acknowledge decides by what is in the table at that moment.** -/
theorem Step.decides {a : Action} (h : Reachable order s) (hstep : Step order s a s')
    (hno : ¬s.Decided tid) (hyes : s'.Decided tid) :
    ∃ t', s'.txns tid = some t' ∧ ∀ queueId messageId receiptHandle,
      t'.op = .acknowledgeMessage queueId messageId receiptHandle →
      ((t'.scan .delete).picked ≠ [] ↔
        s.Acknowledgeable queueId messageId receiptHandle t'.now) := by
  obtain ⟨t', ht', hdecided⟩ := hyes
  refine ⟨t', ht', fun queueId messageId receiptHandle hop => ?_⟩
  have hvalid := h.inv.valid
  -- only the step of the transaction itself can decide it
  have hother : ¬s.txns tid = some t' := fun ht => hno ⟨t', ht, hdecided⟩
  -- a visit that decides is the visit of the one row
  have hvisit : ∀ {t : Txn} {selection : Selection} {id : Uuid} {scan : Scan Uuid},
      s.txns tid = some t → t.phase = .selecting → (t.scan selection).next = some id →
      t.setScan selection scan = t' →
      selection = .delete ∧ t.scan .delete = .start [messageId] 1 ∧ id = messageId := by
    intro t selection id scan ht hphase hnext heq
    cases selection with
    | delete =>
      have hsingle := scan_single h tid t _ _ _ ht (by rw [← hop, ← heq]; rfl)
      exact ⟨rfl, hsingle.of_next hnext⟩
    | lease =>
      refine absurd ⟨t, ht, ?_⟩ hno
      rw [← heq] at hdecided
      simp only [Txn.Decided, hphase]
      simpa [Txn.Decided, Txn.setScan, hphase] using hdecided
  cases hstep with
  | tick => exact absurd ht' hother
  | start =>
    obtain ⟨rfl, rfl⟩ := (System.setTxn_eq_some.mp ht').resolve_right fun h => hother h.2
    exact hdecided.elim
  | @snapshot _ t ht hphase =>
    obtain ⟨rfl, rfl⟩ := (System.setTxn_eq_some.mp ht').resolve_right fun h => hother h.2
    simp only at hop
    simp only [Txn.Decided, hop, Operation.select] at hdecided
    simp only [hop, Operation.select, Scan.start_picked, ne_eq, not_true_eq_false, false_iff]
    rintro ⟨m, hm, hack⟩
    -- had a row matched, it would still have to be visited
    have hmem := List.mem_filter.mpr ⟨hm, hack⟩
    rcases Scan.next_eq_none.mp hdecided with hnone | hnone
    · rw [List.length_eq_zero_iff.mp hnone] at hmem
      simp at hmem
    · rw [List.map_eq_nil_iff.mp hnone] at hmem
      simp at hmem
  | @pass _ t selection id ht hphase hnext hreason =>
    obtain ⟨rfl, rfl⟩ := (System.setTxn_eq_some.mp ht').resolve_right fun h => hother h.2
    obtain ⟨rfl, hscan, rfl⟩ := hvisit ht hphase hnext rfl
    have hop : t.op = _ := hop
    rw [t.setScan_self, hscan]
    refine iff_of_false (by simp) ?_
    rintro ⟨m, hm, hack⟩
    simp only [isAcknowledgeable, decide_eq_true_eq] at hack
    -- an acknowledge waits for a lock, so the row was gone
    rcases hreason with ⟨-, hwaits⟩ | ⟨-, hgone⟩
    · simp [hop, Operation.waits] at hwaits
    · exact (Txn.recheck_none (by rw [hop]; rfl)).mp hgone m hm hack.1
  | @reject _ t selection id ht hphase hnext hfree hrecheck =>
    obtain ⟨rfl, rfl⟩ := (System.setTxn_eq_some.mp ht').resolve_right fun h => hother h.2
    obtain ⟨rfl, hscan, rfl⟩ := hvisit ht hphase hnext rfl
    have hop : t.op = _ := hop
    rw [t.setScan_self, hscan]
    refine iff_of_false (by simp) ?_
    rintro ⟨m, hm, hack⟩
    obtain ⟨m', hm', hid, hwants⟩ := (Txn.recheck_message hvalid (by rw [hop]; rfl)).mp hrecheck
    have hmid := hack
    simp only [isAcknowledgeable, decide_eq_true_eq] at hmid
    obtain rfl := eq_of_key_eq hvalid.messages.ids hm hm' (hmid.1.trans hid.symm)
    simp only [Txn.wants, hop] at hwants
    exact Bool.false_ne_true (hwants.symm.trans hack)
  | @pick _ t selection id ht hphase hnext hfree hrecheck =>
    obtain ⟨rfl, rfl⟩ := (System.setTxn_eq_some.mp ht').resolve_right fun h => hother h.2
    obtain ⟨rfl, hscan, rfl⟩ := hvisit ht hphase hnext rfl
    have hop : t.op = _ := hop
    rw [t.setScan_self, hscan]
    refine iff_of_true (by simp) ?_
    obtain ⟨m, hm, -, hwants⟩ := (Txn.recheck_message hvalid (by rw [hop]; rfl)).mp hrecheck
    simp only [Txn.wants, hop] at hwants
    exact ⟨m, hm, hwants⟩
  | @count _ t ht hphase hselected =>
    obtain ⟨rfl, rfl⟩ := (System.setTxn_eq_some.mp ht').resolve_right fun h => hother h.2
    exact absurd ⟨t, ht, by rw [Txn.Decided, hphase]; exact hselected .delete⟩ hno
  | @lockCounter _ t _ _ ht hphase | @commit _ t ht hphase =>
    obtain ⟨rfl, rfl⟩ := (System.setTxn_eq_some.mp ht').resolve_right fun h => hother h.2
    exact absurd ⟨t, ht, by rw [Txn.Decided, hphase]; trivial⟩ hno
  | abort =>
    obtain ⟨rfl, rfl⟩ := (System.setTxn_eq_some.mp ht').resolve_right fun h => hother h.2
    exact hdecided.elim

/-- What is decided stays decided, until the transaction has ended. -/
theorem decided_kept {s₁ : System} (hrun : Execution (step order) anyAction s₁ s) {t₁ : Txn}
    (ht₁ : s₁.txns tid = some t₁) (hdecided : t₁.Decided) :
    ∃ t, s.txns tid = some t ∧ t.op = t₁.op ∧ t.now = t₁.now ∧
      t.scan .delete = t₁.scan .delete ∧ (t.Decided ∨ t.phase = .aborted) := by
  refine hrun.invariant (I := fun s => ∃ t, s.txns tid = some t ∧ t.op = t₁.op ∧ t.now = t₁.now ∧
      t.scan .delete = t₁.scan .delete ∧ (t.Decided ∨ t.phase = .aborted))
    ⟨t₁, ht₁, rfl, rfl, rfl, Or.inl hdecided⟩ fun s a s' _ ih _ hstep => ?_
  obtain ⟨t, ht, hop, hnow, hscan, hended⟩ := ih
  -- another transaction goes on, or this one does
  have hset : ∀ {actor : Nat} {u v : Txn}, s'.txns = (s.setTxn actor v).txns →
      s.txns actor = some u → (u = t → v.op = u.op ∧ v.now = u.now ∧
        v.scan .delete = u.scan .delete ∧ (v.Decided ∨ v.phase = .aborted)) →
      ∃ t, s'.txns tid = some t ∧ t.op = t₁.op ∧ t.now = t₁.now ∧
        t.scan .delete = t₁.scan .delete ∧ (t.Decided ∨ t.phase = .aborted) := by
    intro actor u v htxns hu hv
    rw [htxns]
    by_cases hactor : tid = actor
    · subst hactor
      obtain rfl := Option.some.inj (hu.symm.trans ht)
      obtain ⟨hvop, hvnow, hvscan, hvended⟩ := hv rfl
      exact ⟨v, s.setTxn_self tid v, hvop.trans hop, hvnow.trans hnow, hvscan.trans hscan, hvended⟩
    · exact ⟨t, (s.setTxn_other v hactor).trans ht, hop, hnow, hscan, hended⟩
  -- what is decided is not visited again
  have hvisit : ∀ {u : Txn} {selection : Selection} {id : Uuid} (scan : Scan Uuid),
      u.phase = .selecting → (u.scan selection).next = some id → u = t →
      (u.setScan selection scan).op = u.op ∧ (u.setScan selection scan).now = u.now ∧
        (u.setScan selection scan).scan .delete = u.scan .delete ∧
        ((u.setScan selection scan).Decided ∨ (u.setScan selection scan).phase = .aborted) := by
    rintro u selection id scan hphase hnext rfl
    have hdone : (u.scan .delete).next = none := by simpa [Txn.Decided, hphase] using hended
    cases selection with
    | delete =>
      rw [hdone] at hnext
      simp at hnext
    | lease =>
      refine ⟨rfl, rfl, u.setScan_other scan (by simp), Or.inl ?_⟩
      simpa [Txn.Decided, Txn.setScan, hphase] using hdone
  cases step_cases hstep with
  | tick => exact ⟨t, ht, hop, hnow, hscan, hended⟩
  | @start actor op hidle =>
    refine ⟨t, (s.setTxn_other _ ?_).trans ht, hop, hnow, hscan, hended⟩
    rintro rfl
    rw [hidle] at ht
    simp at ht
  | snapshot hu hphase =>
    refine hset rfl hu ?_
    rintro rfl
    simp [Txn.Decided, hphase] at hended
  | pass hu hphase hnext | reject hu hphase hnext | pick hu hphase hnext =>
    exact hset rfl hu (hvisit _ hphase hnext)
  | count hu => exact hset rfl hu fun _ => ⟨rfl, rfl, rfl, Or.inl trivial⟩
  | lockCounter hu hphase =>
    exact hset rfl hu fun _ => ⟨rfl, rfl, rfl, Or.inl (by simp [Txn.Decided, hphase])⟩
  | commit hu => exact hset rfl hu fun _ => ⟨rfl, rfl, rfl, Or.inl trivial⟩
  | abort hu => exact hset rfl hu fun _ => ⟨rfl, rfl, rfl, Or.inr rfl⟩

/-! ## What an acknowledge answers -/

/-- The answer tells whether the acknowledge has a row to delete. -/
theorem Txn.Inv.execute_acknowledge (h : t.Inv s tid) (hvalid : s.db.Valid)
    (order : TriggerOrder) {queueId messageId receiptHandle : Uuid}
    (hop : t.op = .acknowledgeMessage queueId messageId receiptHandle) :
    (t.execute order s.db).2 = .acknowledgeMessage
      (if (t.scan .delete).picked = [] then .unchanged else .acknowledged) := by
  obtain ⟨found, hfound, hack⟩ := h.rows hvalid (by rw [hop]; rfl) .delete
  obtain ⟨db', response, hrun, hresponse, -⟩ := executeAcknowledge_effect t.queue.toList hvalid t.now
    queueId messageId receiptHandle (List.Nodup.of_map (·.id) (hfound ▸ h.deletes_nodup))
    fun m hm => ⟨(hack m hm).1, by simpa [Txn.wants, hop] using (hack m hm).2⟩
  simp only [Txn.execute, hop]
  rw [← hfound, hrun, hresponse]
  simp only [List.map_eq_nil_iff]

/-- A transaction that has committed is in the log. -/
theorem Step.committed_origin {a : Action} (hstep : Step order s a s') {response : Response}
    (ht' : s'.txns tid = some t) (hphase' : t.phase = .committed response) :
    s.txns tid = some t ∨ ∃ t₀, s.txns tid = some t₀ ∧ t₀.phase.active ∧
      s' = s.commit order tid t₀ := by
  cases hstep with
  | tick => exact Or.inl ht'
  | start =>
    rcases System.setTxn_eq_some.mp ht' with ⟨rfl, rfl⟩ | ⟨-, ht⟩
    · simp [Txn.begin] at hphase'
    · exact Or.inl ht
  | snapshot _ hphase | pass _ hphase | reject _ hphase | pick _ hphase | count _ hphase
  | lockCounter _ hphase =>
    rcases System.setTxn_eq_some.mp ht' with ⟨rfl, rfl⟩ | ⟨-, ht⟩
    · simp [Txn.setScan, hphase] at hphase'
    · exact Or.inl ht
  | @commit _ t₀ ht hphase =>
    rcases System.setTxn_eq_some.mp ht' with ⟨rfl, rfl⟩ | ⟨-, ht⟩
    · exact Or.inr ⟨t₀, ht, by rw [hphase]; rfl, rfl⟩
    · exact Or.inl ht
  | abort =>
    rcases System.setTxn_eq_some.mp ht' with ⟨rfl, rfl⟩ | ⟨-, ht⟩
    · simp at hphase'
    · exact Or.inl ht

/-- The log has the answer of every acknowledge that has committed. -/
theorem committed_answer (h : Reachable order s) :
    ∀ tid t queueId messageId receiptHandle response, s.txns tid = some t →
      t.op = .acknowledgeMessage queueId messageId receiptHandle → t.phase = .committed response →
      response = .acknowledgeMessage
          (if (t.scan .delete).picked = [] then .unchanged else .acknowledged) ∧
        ∃ e ∈ s.log, e.op = t.op ∧ e.now = t.now ∧ e.response = response := by
  refine h.invariant (I := fun s => ∀ tid t queueId messageId receiptHandle response,
      s.txns tid = some t → t.op = .acknowledgeMessage queueId messageId receiptHandle →
      t.phase = .committed response →
      response = .acknowledgeMessage
          (if (t.scan .delete).picked = [] then .unchanged else .acknowledged) ∧
        ∃ e ∈ s.log, e.op = t.op ∧ e.now = t.now ∧ e.response = response)
    (by simp [System.initial]) fun s a s' hrun ih _ hstep => ?_
  have hinv := Reachable.inv hrun
  have hstep := step_cases hstep
  intro tid t queueId messageId receiptHandle response ht hop hphase
  rcases hstep.committed_origin ht hphase with hold | ⟨t₀, ht₀, hactive, rfl⟩
  · obtain ⟨hresponse, e, he, hsame⟩ := ih tid t _ _ _ _ hold hop hphase
    refine ⟨hresponse, e, ?_, hsame⟩
    rcases hstep.committed with ⟨hlog, -⟩ | ⟨actor, u, -, -, -, rfl⟩
    · exact hlog ▸ he
    · exact List.mem_append_left _ he
  · obtain rfl := Option.some.inj ((s.setTxn_self tid _).symm.trans ht)
    obtain rfl : (s.commitEvent order t₀).response = response := Phase.committed.inj hphase
    exact ⟨(hinv.txn tid t₀ ht₀ hactive).execute_acknowledge hinv.valid order hop,
      s.commitEvent order t₀, List.mem_append_right _ (List.mem_singleton.mpr rfl), rfl, rfl, rfl⟩

/-- An acknowledge that answers, has answered what it decided. -/
theorem TakesEffect.answer {s₀ : System} (hmoment : TakesEffect order s₀ tid s)
    (ht : s.txns tid = some t) {queueId messageId receiptHandle : Uuid}
    (hop : t.op = .acknowledgeMessage queueId messageId receiptHandle) {response : Response}
    (hphase : t.phase = .committed response) :
    (response = .acknowledgeMessage .acknowledged ∧
        s₀.Acknowledgeable queueId messageId receiptHandle t.now) ∨
      (response = .acknowledgeMessage .unchanged ∧
        ¬s₀.Acknowledgeable queueId messageId receiptHandle t.now) := by
  obtain ⟨a, s₁, hreach, hno, hstep, hyes, hrun⟩ := hmoment
  obtain ⟨t₁, ht₁, hdecides⟩ := (step_cases hstep).decides hreach hno hyes
  obtain ⟨u, hu, hdecided⟩ := hyes
  obtain rfl := Option.some.inj (hu.symm.trans ht₁)
  obtain ⟨t', ht', hop', hnow', hscan', -⟩ := decided_kept hrun ht₁ hdecided
  obtain rfl := Option.some.inj (ht'.symm.trans ht)
  obtain ⟨hresponse, -⟩ := committed_answer ((hreach.step hstep).trans hrun) tid _ _ _ _ _ ht hop hphase
  have hdecides := hdecides queueId messageId receiptHandle (hop'.symm.trans hop)
  rw [← hnow', ← hscan'] at hdecides
  by_cases hpicked : (t'.scan .delete).picked = []
  · rw [if_pos hpicked] at hresponse
    exact Or.inr ⟨hresponse, fun hack => hdecides.mpr hack hpicked⟩
  · rw [if_neg hpicked] at hresponse
    exact Or.inl ⟨hresponse, hdecides.mp hpicked⟩

/-- Every acknowledge that answers has had such a moment. -/
theorem exists_takesEffect (h : Reachable order s) (ht : s.txns tid = some t)
    {response : Response} (hphase : t.phase = .committed response) :
    ∃ s₀, TakesEffect order s₀ tid s := by
  have hno : ¬System.initial.Decided tid := by
    rintro ⟨u, hu, -⟩
    simp [System.initial] at hu
  have hyes : s.Decided tid := ⟨t, ht, by rw [Txn.Decided, hphase]; trivial⟩
  obtain ⟨s₀, a, s₁, hreach, -, hstep, hno, hyes, hrun⟩ :=
    Execution.turning (P := fun s => s.Decided tid) h hno hyes
  exact ⟨s₀, a, s₁, hreach, hno, hstep, hyes, hrun⟩

/-! ## What an acknowledge does -/

/-- An acknowledge deletes the row that it has matched, or changes nothing. -/
def Event.AcknowledgeEffect (e : Event) (queueId messageId receiptHandle : Uuid) : Prop :=
  (e.response = .acknowledgeMessage .acknowledged ∧
      (∃ m ∈ e.before.queueMessage,
        isAcknowledgeable queueId messageId receiptHandle e.now m) ∧
      ∃ shards, e.after =
        e.before.withMessages (e.before.queueMessage.filter fun m => m.id ≠ messageId) shards) ∨
    (e.response = .acknowledgeMessage .unchanged ∧ e.after = e.before)

theorem acknowledge_effect (h : Reachable order s) : ∀ e ∈ s.log,
    ∀ queueId messageId receiptHandle,
      e.op = .acknowledgeMessage queueId messageId receiptHandle →
      e.AcknowledgeEffect queueId messageId receiptHandle := by
  refine h.invariant (I := fun s => ∀ e ∈ s.log, ∀ queueId messageId receiptHandle,
      e.op = .acknowledgeMessage queueId messageId receiptHandle →
      e.AcknowledgeEffect queueId messageId receiptHandle)
    (by simp [System.initial]) fun s a s' hrun ih _ hstep => ?_
  have hinv := Reachable.inv hrun
  rcases (step_cases hstep).committed with ⟨hsame, -⟩ | ⟨tid, t, rfl, ht, hactive, rfl⟩
  · rw [hsame]
    exact ih
  refine List.forall_mem_append.mpr ⟨ih, List.forall_mem_singleton.mpr ?_⟩
  intro queueId messageId receiptHandle hop
  have htxn := hinv.txn tid t ht hactive
  have hop : t.op = _ := hop
  have hresponse : (s.commitEvent order t).response = _ :=
    htxn.execute_acknowledge hinv.valid order hop
  have heffect : Effect _ s.db t.now t.op (s.commitEvent order t).response
      (s.commitEvent order t).after := (htxn.execute_effect hinv.valid order).1
  rw [hop, hresponse] at heffect
  unfold Event.AcknowledgeEffect
  rw [hresponse]
  generalize (s.commitEvent order t).after = db' at heffect ⊢
  by_cases hpicked : (t.scan .delete).picked = []
  · simp only [hpicked, if_true] at heffect ⊢
    cases heffect with
    | unchanged => exact Or.inr ⟨trivial, rfl⟩
  · simp only [hpicked, if_false] at heffect ⊢
    cases heffect with
    | acknowledged hm hack => exact Or.inl ⟨trivial, ⟨_, hm, hack⟩, _, rfl⟩

/-! ## What is acknowledged is gone -/

/-- The message is neither live nor archived, and will never be again. -/
structure System.Gone (s : System) (id : Uuid) : Prop where
  spent : s.IdSpent id
  messages : ∀ m ∈ s.db.queueMessage, m.id ≠ id
  deadLetters : ∀ d ∈ s.db.queueDeadLetterMessage, d.id ≠ id

theorem System.Gone.step {a : Action} {id : Uuid} (h : s.Gone id) (hinv : s.Inv)
    (hstep : Step order s a s') : s'.Gone id := by
  rcases hstep.committed with ⟨-, -, hmessages, hdeadLetters, -⟩ | ⟨tid, t, rfl, ht, hactive, rfl⟩
  · exact ⟨h.spent.step hstep, hmessages ▸ h.messages, hdeadLetters ▸ h.deadLetters⟩
  obtain ⟨heffect, -⟩ := (hinv.txn tid t ht hactive).execute_effect hinv.valid order
  refine ⟨h.spent.step hstep, fun m' hm' hid => ?_, fun d hd hid => ?_⟩
  · rcases heffect.message_id hinv.valid hm' with hnew | ⟨m, hm, hmid⟩
    · exact h.spent.2 tid t ht hactive (hnew.trans (congrArg some hid))
    · exact h.messages m hm (hmid.trans hid)
  · rcases heffect.deadLetter_id hd with hd | ⟨m, hm, hmid⟩
    · exact h.deadLetters d hd hid
    · exact h.messages m hm (hmid.trans hid)

/-- An acknowledged message is gone. -/
theorem acknowledged_gone (h : Reachable order s) :
    ∀ e ∈ s.log, ∀ id, e.Acknowledges id → s.Gone id := by
  refine h.invariant (I := fun s => ∀ e ∈ s.log, ∀ id, e.Acknowledges id → s.Gone id)
    (by simp [System.initial]) fun s a s' hrun ih _ hstep => ?_
  have hinv := Reachable.inv hrun
  have hlogged := acknowledge_effect (Reachable.step hrun hstep)
  have hstep := step_cases hstep
  have hkept : ∀ e ∈ s.log, ∀ id, e.Acknowledges id → s'.Gone id :=
    fun e he id hack => (ih e he id hack).step hinv hstep
  rcases hstep.committed with ⟨hsame, -⟩ | ⟨tid, t, rfl, ht, hactive, rfl⟩
  · rw [hsame]
    exact hkept
  refine List.forall_mem_append.mpr ⟨hkept, List.forall_mem_singleton.mpr ?_⟩
  rintro id ⟨⟨queueId, receiptHandle, hop⟩, hresponse⟩
  rcases hlogged _ (List.mem_append_right _ (List.mem_singleton.mpr rfl)) _ _ _ hop with
    ⟨-, ⟨m, hm, hack⟩, shards, hafter⟩ | ⟨hunchanged, -⟩
  · simp only [isAcknowledgeable, decide_eq_true_eq] at hack
    obtain ⟨rfl, -⟩ := hack
    have hafter : (s.commit order tid t).db = _ := hafter
    refine ⟨(hinv.live_spent hm).step hstep, fun m' hm' hid => ?_, fun d hd => ?_⟩
    · rw [hafter] at hm'
      simpa [hid] using (List.mem_filter.mp hm').2
    · rw [hafter] at hd
      exact hinv.disjoint m hm d hd
  · rw [hresponse] at hunchanged
    simp at hunchanged

/-- What a later transaction can do with an acknowledged message: nothing. -/
structure Event.Ignores (e : Event) (id : Uuid) : Prop where
  before : ∀ m ∈ e.before.queueMessage, m.id ≠ id
  messages : ∀ m ∈ e.after.queueMessage, m.id ≠ id
  deadLetters : ∀ d ∈ e.after.queueDeadLetterMessage, d.id ≠ id
  delivered : e.response.delivered ≠ some id
  acknowledged : ¬e.Acknowledges id

theorem acknowledged_ignored (h : Reachable order s) :
    s.log.Pairwise fun e e' => ∀ id, e.Acknowledges id → e'.Ignores id := by
  refine h.invariant
    (I := fun s => s.log.Pairwise fun e e' => ∀ id, e.Acknowledges id → e'.Ignores id)
    (by simp [System.initial]) fun s a s' hrun ih _ hstep => ?_
  have hinv := Reachable.inv hrun
  have hlogged := acknowledge_effect (Reachable.step hrun hstep)
  have hstep := step_cases hstep
  rcases hstep.committed with ⟨hsame, -⟩ | ⟨tid, t, rfl, ht, hactive, rfl⟩
  · rw [hsame]
    exact ih
  refine List.pairwise_append.mpr ⟨ih, List.pairwise_singleton _ _, fun e he e' he' id hack => ?_⟩
  obtain rfl := List.mem_singleton.mp he'
  have hgone := acknowledged_gone hrun e he id hack
  have hafter := hgone.step hinv hstep
  obtain ⟨heffect, -⟩ := (hinv.txn tid t ht hactive).execute_effect hinv.valid order
  refine ⟨hgone.messages, hafter.messages, hafter.deadLetters, fun hdelivered => ?_, ?_⟩
  · obtain ⟨-, -, m, -, -, -, hm, hid, -⟩ := heffect.delivered hinv.valid hdelivered
    exact hgone.messages m hm hid
  · rintro ⟨⟨queueId, receiptHandle, hop⟩, hresponse⟩
    rcases hlogged _ (List.mem_append_right _ (List.mem_singleton.mpr rfl)) _ _ _ hop with
      ⟨-, ⟨m, hm, hack⟩, -⟩ | ⟨hunchanged, -⟩
    · simp only [isAcknowledgeable, decide_eq_true_eq] at hack
      exact hgone.messages m hm hack.1
    · rw [hresponse] at hunchanged
      simp at hunchanged

/-! ## Receipt handles of earlier leases -/

/-- The receipt handle is not that of the message's newest lease, and will never be again. -/
structure System.Superseded (s : System) (id receiptHandle : Uuid) : Prop where
  spent : s.HandleSpent receiptHandle
  newest : ∀ m ∈ s.db.queueMessage, m.id = id → m.receiptHandle ≠ some receiptHandle

theorem System.Superseded.step {a : Action} {id receiptHandle : Uuid}
    (h : s.Superseded id receiptHandle) (hinv : s.Inv) (hstep : Step order s a s') :
    s'.Superseded id receiptHandle := by
  rcases hstep.committed with ⟨-, -, hmessages, -⟩ | ⟨tid, t, rfl, ht, hactive, rfl⟩
  · exact ⟨h.spent.step hstep, hmessages ▸ h.newest⟩
  obtain ⟨heffect, -⟩ := (hinv.txn tid t ht hactive).execute_effect hinv.valid order
  refine ⟨h.spent.step hstep, fun m' hm' hid hhandle => ?_⟩
  rcases heffect.receiptHandle hinv.valid hm' hhandle with hdrawn | hm
  · exact h.spent.2 tid t ht hactive hdrawn
  · exact h.newest m' hm hid hhandle

/-- A new lease supersedes the receipt handles of the earlier ones. -/
theorem leases_superseded (h : Reachable order s) :
    s.log.Pairwise fun e e' => ∀ lease lease', e.Leased lease → e'.Leased lease' →
      lease.id = lease'.id → ∀ receiptHandle, lease.receiptHandle = some receiptHandle →
        s.Superseded lease.id receiptHandle := by
  refine h.invariant (I := fun s => s.log.Pairwise fun e e' => ∀ lease lease', e.Leased lease →
      e'.Leased lease' → lease.id = lease'.id → ∀ receiptHandle,
        lease.receiptHandle = some receiptHandle → s.Superseded lease.id receiptHandle)
    (by simp [System.initial]) fun s a s' hrun ih _ hstep => ?_
  have hinv := Reachable.inv hrun
  have hsuccessive := leases_successive (Reachable.step hrun hstep)
  have hstep := step_cases hstep
  have hkept := ih.imp fun hold lease lease' hlease hlease' hid r hr =>
    (hold lease lease' hlease hlease' hid r hr).step hinv hstep
  rcases hstep.committed with ⟨hsame, -⟩ | ⟨tid, t, rfl, ht, hactive, rfl⟩
  · rw [hsame]
    exact hkept
  refine List.pairwise_append.mpr ⟨hkept, List.pairwise_singleton _ _, fun e he e' he' => ?_⟩
  obtain rfl := List.mem_singleton.mp he'
  intro lease lease' hlease hlease' hid r hr
  obtain ⟨-, hhandle⟩ := (List.pairwise_append.mp hsuccessive).2.2 e he _
    (List.mem_singleton.mpr rfl) lease lease' hlease hlease' hid
  obtain ⟨queueId, r', hop, hr'⟩ := hlease.handle
  obtain rfl : r = r' := Option.some.inj (hr.symm.trans hr')
  refine ⟨((Reachable.logInv hrun).handle e he r (by rw [hop]; rfl)).step hstep,
    fun m hm hmid hsame => ?_⟩
  -- the one live row of the message is the new lease
  have hvalid := (hinv.step hstep).valid
  obtain rfl := eq_of_key_eq hvalid.messages.ids hm hlease'.stored (hmid.trans hid)
  exact hhandle (hr.trans hsame.symm)

/-- Once a message has been leased again, its earlier receipt handle acknowledges nothing. -/
theorem superseded_unchanged (h : Reachable order s) :
    s.log.Triplewise fun e e' e'' => ∀ lease lease', e.Leased lease → e'.Leased lease' →
      lease.id = lease'.id → ∀ queueId receiptHandle, lease.receiptHandle = some receiptHandle →
        e''.op = .acknowledgeMessage queueId lease.id receiptHandle →
        e''.response = .acknowledgeMessage .unchanged := by
  refine h.invariant (I := fun s => s.log.Triplewise fun e e' e'' => ∀ lease lease',
      e.Leased lease → e'.Leased lease' → lease.id = lease'.id → ∀ queueId receiptHandle,
        lease.receiptHandle = some receiptHandle →
        e''.op = .acknowledgeMessage queueId lease.id receiptHandle →
        e''.response = .acknowledgeMessage .unchanged)
    (by simp [System.initial]) fun s a s' hrun ih _ hstep => ?_
  have hlogged := acknowledge_effect (Reachable.step hrun hstep)
  rcases (step_cases hstep).committed with ⟨hsame, -⟩ | ⟨tid, t, rfl, ht, hactive, rfl⟩
  · rw [hsame]
    exact ih
  refine List.triplewise_append.mpr ⟨ih, List.triplewise_singleton _ _,
    fun _ _ => List.pairwise_singleton _ _, fun e'' he'' => ?_⟩
  obtain rfl := List.mem_singleton.mp he''
  refine (leases_superseded hrun).imp fun hold lease lease' hlease hlease' hid queueId r hr hop => ?_
  have hsuperseded := hold lease lease' hlease hlease' hid r hr
  rcases hlogged _ (List.mem_append_right _ (List.mem_singleton.mpr rfl)) _ _ _ hop with
    ⟨-, ⟨m, hm, hack⟩, -⟩ | ⟨hunchanged, -⟩
  · simp only [isAcknowledgeable, decide_eq_true_eq] at hack
    exact absurd hack.2.2.1 (hsuperseded.newest m hm hack.1)
  · exact hunchanged

/-- **Acknowledgements are safe.**  In every interleaving: an acknowledge that answers has had a
    moment at which it took effect, and answers Acknowledged exactly if at that moment the
    message was live in its queue with the given receipt handle and a lease running at the
    acknowledge's timestamp, and Unchanged otherwise; its commit then deletes precisely this row
    or changes nothing.  A message that was acknowledged is never again delivered, archived,
    cleaned up or acknowledged, so that at most one acknowledge of it succeeds; and once a
    dequeue has leased it again no acknowledge with an earlier receipt handle does. -/
theorem acknowledge_safety (h : Reachable order s) :
    (∀ tid t queueId messageId receiptHandle response, s.txns tid = some t →
      t.op = .acknowledgeMessage queueId messageId receiptHandle →
      t.phase = .committed response →
        (∃ s₀, TakesEffect order s₀ tid s) ∧
        (∀ s₀, TakesEffect order s₀ tid s →
          (response = .acknowledgeMessage .acknowledged ∧
              s₀.Acknowledgeable queueId messageId receiptHandle t.now) ∨
            (response = .acknowledgeMessage .unchanged ∧
              ¬s₀.Acknowledgeable queueId messageId receiptHandle t.now)) ∧
        ∃ e ∈ s.log, e.op = t.op ∧ e.now = t.now ∧ e.response = response) ∧
    (∀ e ∈ s.log, ∀ queueId messageId receiptHandle,
      e.op = .acknowledgeMessage queueId messageId receiptHandle →
        e.AcknowledgeEffect queueId messageId receiptHandle) ∧
    (s.log.Pairwise fun e e' => ∀ id, e.Acknowledges id → e'.Ignores id) ∧
    s.log.Triplewise fun e e' e'' => ∀ lease lease', e.Leased lease → e'.Leased lease' →
      lease.id = lease'.id → ∀ queueId receiptHandle, lease.receiptHandle = some receiptHandle →
        e''.op = .acknowledgeMessage queueId lease.id receiptHandle →
        e''.response = .acknowledgeMessage .unchanged := by
  refine ⟨fun tid t queueId messageId receiptHandle response ht hop hphase => ⟨?_, ?_, ?_⟩,
    acknowledge_effect h, acknowledged_ignored h, superseded_unchanged h⟩
  · exact exists_takesEffect h ht hphase
  · exact fun s₀ hmoment => hmoment.answer ht hop hphase
  · exact (committed_answer h tid t _ _ _ _ ht hop hphase).2

/-- A message that is leased twice: the first receipt handle comes too late, the second one
    acknowledges the message once. -/
theorem acknowledge_safety_twoLeases : ∃ s,
    runActions .deleteFirst (oneOrder 5 (by decide) ++
      transaction 2 (.dequeueMessage 1 11) [.lease] 1 ++ [.tick 1000000] ++
      transaction 3 (.dequeueMessage 1 12) [.lease] 0 ++
      transaction 4 (.acknowledgeMessage 1 7 11) [] 0 ++
      transaction 5 (.acknowledgeMessage 1 7 12) [.delete] 1 ++
      transaction 6 (.acknowledgeMessage 1 7 12) [] 0) = some s ∧
    (s.log.drop 4).map (·.response) = [.acknowledgeMessage .unchanged,
      .acknowledgeMessage .acknowledged, .acknowledgeMessage .unchanged] ∧
    s.log.Pairwise fun e e' => ∀ id, e.Acknowledges id → e'.Ignores id := by
  have hrun : (runActions .deleteFirst (oneOrder 5 (by decide) ++
      transaction 2 (.dequeueMessage 1 11) [.lease] 1 ++ [.tick 1000000] ++
      transaction 3 (.dequeueMessage 1 12) [.lease] 0 ++
      transaction 4 (.acknowledgeMessage 1 7 11) [] 0 ++
      transaction 5 (.acknowledgeMessage 1 7 12) [.delete] 1 ++
      transaction 6 (.acknowledgeMessage 1 7 12) [] 0)).map
        (fun s => (s.log.drop 4).map (·.response)) = some [.acknowledgeMessage .unchanged,
          .acknowledgeMessage .acknowledged, .acknowledgeMessage .unchanged] := by
    decide +kernel
  obtain ⟨s, hs, hresponses⟩ := Option.map_eq_some_iff.mp hrun
  exact ⟨s, hs, hresponses, (acknowledge_safety (reachable_of_runActions hs)).2.2.1⟩

end Retsu
