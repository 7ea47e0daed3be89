/-
  Transactions come to an end.

  Each step of a transaction leaves it less to do.  A transaction that cannot go on waits for a
  lock: an acknowledge for its message, any other one for a counter row.  An acknowledge that waits
  holds nothing yet, so nobody waits for it, and transactions that wait for each other in a circle
  do so for counter rows.
-/
import Retsu.AcknowledgeSafety
import Retsu.Concurrency.Liveness
import Retsu.CounterLocks

namespace Retsu

open Concurrency Relation

variable {order : TriggerOrder} {s s' : System} {tid : Nat} {t : Txn}

/-! ## What is left to do -/

/-- The action finishes something that has been begun. -/
def Action.works : Action → Prop
  | .tick _ | .start _ _ => False
  | _ => True

/-- The action of this transaction, other than to abort it. -/
def Action.Continues (tid : Nat) : Action → Prop
  | .snapshot actor | .visit actor _ | .count actor | .lockCounter actor | .commit actor =>
    actor = tid
  | .tick _ | .start _ _ | .abort _ => False

/-- Statements first select, then count; how much there is of each is known when it begins. -/
def Phase.rank : Phase → Nat
  | .started => 3
  | .selecting => 2
  | .counting => 1
  | .committed _ | .aborted => 0

def Txn.todo (t : Txn) : Nat × Nat :=
  (t.phase.rank, match t.phase with
    | .selecting => (t.scan .delete).pending.length + (t.scan .lease).pending.length
    | .counting => t.counters.length
    | _ => 0)

/-- What an active transaction has left to do. -/
def System.left (s : System) (tid : Nat) : Multiset (Nat × Nat) :=
  match s.txns tid with
  | none => 0
  | some t => if t.phase.active then {t.todo} else 0

/-- The lock that a transaction has to have to go on. -/
def Txn.asks (t : Txn) : Option Lock :=
  match t.phase with
  | .selecting =>
    if t.op.waits then ((t.scan .delete).next.or (t.scan .lease).next).map t.lock else none
  | .counting => t.counters.head?.map .counter
  | _ => none

/-- A transaction needs a lock that another one has. -/
def System.Waits (s : System) : Nat → Nat → Prop :=
  WaitsFor s.locks fun tid => (s.txns tid).bind Txn.asks

/-- Transactions wait for a counter row that another one has locked. -/
def System.CounterWaits (s : System) : Nat → Nat → Prop := WaitsFor s.counterLocks s.nextCounter

/-- The transaction has no lock yet: it has just begun, or it still waits for its only row. -/
def Txn.Fresh (t : Txn) : Prop :=
  t.phase = .started ∨ t.phase = .selecting ∧ t.op.waits = true ∧ (t.scan .delete).next ≠ none

structure Txn.HoldsLate (s : System) (tid : Nat) (t : Txn) : Prop where
  lease : t.op.waits = true → (t.scan .lease).pending = []
  fresh : t.Fresh → ∀ k, s.locks k ≠ some tid

/-- A statement that waits has one row to visit, and nothing more after it. -/
theorem Txn.HoldsLate.setScan (h : t.HoldsLate s tid) {selection : Selection} {id : Uuid}
    {scan : Scan Uuid} (hphase : t.phase = .selecting) (hnext : (t.scan selection).next = some id)
    (hscan : scan.pending = (t.scan selection).pending.tail)
    (hsingle : t.op.waits = true → ∃ messageId, (t.scan .delete).Single messageId) :
    ((t.setScan selection scan).op.waits = true →
      ((t.setScan selection scan).scan .lease).pending = []) ∧
      ¬(t.setScan selection scan).Fresh := by
  have hdelete : t.op.waits = true → selection = .delete := by
    intro hwaits
    cases selection with
    | delete => rfl
    | lease =>
      have hpending := (Scan.next_eq_some hnext).2
      rw [h.lease hwaits] at hpending
      simp at hpending
  constructor
  · intro hwaits
    obtain rfl := hdelete hwaits
    rw [t.setScan_other scan (by simp)]
    exact h.lease hwaits
  · rintro (hstarted | ⟨-, hwaits, hmore⟩)
    · rw [show (t.setScan selection scan).phase = t.phase from rfl, hphase] at hstarted
      simp at hstarted
    · obtain rfl := hdelete hwaits
      obtain ⟨messageId, hsingle⟩ := hsingle hwaits
      obtain ⟨hone, -⟩ := hsingle.of_next hnext
      rw [hone] at hscan
      rw [t.setScan_self] at hmore
      exact hmore (Scan.next_eq_none.mpr (Or.inr hscan))

/-- Statements that wait hold nothing before they have their row. -/
theorem holdsLate (h : Reachable order s) : ∀ tid t, s.txns tid = some t → t.HoldsLate s tid := by
  refine h.invariant (I := fun s => ∀ tid t, s.txns tid = some t → t.HoldsLate s tid)
    (by simp [System.initial]) fun s a s' hrun ih _ hstep => ?_
  have hinv := Reachable.inv hrun
  have hset : ∀ {actor : Nat} {u : Txn} {s' : System}, s'.txns = (s.setTxn actor u).txns →
      (∀ k other, other ≠ actor → s'.locks k = some other → s.locks k = some other) →
      u.HoldsLate s' actor → ∀ tid t, s'.txns tid = some t → t.HoldsLate s' tid := by
    intro actor u s' htxns hlocks hu tid t ht
    rw [htxns] at ht
    rcases System.setTxn_eq_some.mp ht with ⟨rfl, rfl⟩ | ⟨hother, ht⟩
    · exact hu
    · have hold := ih tid t ht
      exact ⟨hold.lease, fun hfresh k hk => hold.fresh hfresh k (hlocks k tid hother hk)⟩
  have hsingle : ∀ {actor : Nat} {u : Txn}, s.txns actor = some u → u.op.waits = true →
      ∃ messageId, (u.scan .delete).Single messageId := by
    intro actor u hu hwaits
    cases hop : u.op with
    | acknowledgeMessage queueId messageId receiptHandle =>
      exact ⟨messageId, scan_single hrun actor u _ _ _ hu hop⟩
    | _ => simp [hop, Operation.waits] at hwaits
  cases step_cases hstep with
  | tick => exact fun tid t ht => ⟨(ih tid t ht).lease, (ih tid t ht).fresh⟩
  | @start actor op hidle =>
    refine hset rfl (fun _ _ _ h => h) ⟨fun _ => rfl, fun _ k hk => ?_⟩
    obtain ⟨u, hu, -⟩ := hinv.holder k _ hk
    rw [hidle] at hu
    simp at hu
  | @snapshot actor u hu hphase =>
    refine hset rfl (fun _ _ _ h => h) ⟨fun hwaits => ?_, fun _ k hk => ?_⟩
    · have hwaits : u.op.waits = true := hwaits
      show (u.op.select s.db u.now .lease).pending = []
      cases hop : u.op with
      | acknowledgeMessage => rfl
      | _ => simp [hop, Operation.waits] at hwaits
    · exact (ih actor u hu).fresh (Or.inl hphase) k hk
  | @pass actor u selection id hu hphase hnext =>
    obtain ⟨hlease, hnot⟩ :=
      (ih actor u hu).setScan hphase hnext Scan.pass_pending (hsingle hu)
    exact hset rfl (fun _ _ _ h => h) ⟨hlease, fun hfresh => absurd hfresh hnot⟩
  | @reject actor u selection id hu hphase hnext hfree =>
    obtain ⟨hlease, hnot⟩ :=
      (ih actor u hu).setScan hphase hnext Scan.pass_pending (hsingle hu)
    exact hset rfl (fun k other hne h => (LockTable.acquire_other hfree hne).mp h)
      ⟨hlease, fun hfresh => absurd hfresh hnot⟩
  | @pick actor u selection id hu hphase hnext hfree =>
    obtain ⟨hlease, hnot⟩ :=
      (ih actor u hu).setScan hphase hnext Scan.pick_pending (hsingle hu)
    exact hset rfl (fun k other hne h => (LockTable.acquire_other hfree hne).mp h)
      ⟨hlease, fun hfresh => absurd hfresh hnot⟩
  | @count actor u hu =>
    exact hset rfl (fun _ _ _ h => h)
      ⟨(ih actor u hu).lease, fun hfresh => by simp [Txn.Fresh] at hfresh⟩
  | @lockCounter actor u key rest hu hphase hnext hfree =>
    refine hset rfl (fun k other hne h => (LockTable.acquire_other hfree hne).mp h)
      ⟨(ih actor u hu).lease, fun hfresh => ?_⟩
    simp [Txn.Fresh, hphase] at hfresh
  | @commit actor u hu | @abort actor u hu =>
    exact hset rfl (fun k other _ h => (LockTable.release_eq_some.mp h).1)
      ⟨(ih actor u hu).lease, fun hfresh => by simp [Txn.Fresh] at hfresh⟩

/-- One who is waited for waits for counter rows only. -/
theorem System.Waits.counter (h : Reachable order s) {tid₀ tid' : Nat} (hheld : s.Waits tid₀ tid)
    (hwaits : s.Waits tid tid') : s.CounterWaits tid tid' := by
  obtain ⟨held, -, hheld, -⟩ := hheld
  obtain ⟨k, hasks, hk, hne⟩ := hwaits
  obtain ⟨t, ht, hasks⟩ := Option.bind_eq_some_iff.mp hasks
  rw [Txn.asks] at hasks
  split at hasks
  · rename_i hphase
    rw [Option.ite_none_right_eq_some] at hasks
    obtain ⟨hop, hasks⟩ := hasks
    have hlate := holdsLate h tid t ht
    have hlease : (t.scan .lease).next = none := Scan.next_eq_none.mpr (Or.inr (hlate.lease hop))
    rw [hlease, Option.or_none] at hasks
    obtain ⟨id, hnext, -⟩ := Option.map_eq_some_iff.mp hasks
    exact absurd hheld (hlate.fresh (Or.inr ⟨hphase, hop, by simp [hnext]⟩) held)
  · rename_i hphase
    obtain ⟨key, hhead, rfl⟩ := Option.map_eq_some_iff.mp hasks
    refine ⟨key, ?_, hk, hne⟩
    rw [System.nextCounter, ht, Option.bind_some, if_pos hphase, hhead]
  · simp at hasks

/-- A step is about one transaction at most. -/
theorem Step.txns_other {a : Action} (hstep : Step order s a s') :
    ∃ tid, ∀ other ≠ tid, s'.txns other = s.txns other := by
  cases hstep with
  | tick => exact ⟨0, fun _ _ => rfl⟩
  | start | snapshot | pass | reject | pick | count | lockCounter | commit | abort =>
    exact ⟨_, fun _ hother => s.setTxn_other _ hother⟩

/-- There are finitely many transactions. -/
theorem Reachable.finite (h : Reachable order s) : ∃ bound, ∀ tid ≥ bound, s.txns tid = none := by
  refine h.invariant (I := fun s => ∃ bound, ∀ tid ≥ bound, s.txns tid = none)
    ⟨0, fun _ _ => rfl⟩ fun s a s' _ ih _ hstep => ?_
  obtain ⟨bound, hbound⟩ := ih
  obtain ⟨actor, hothers⟩ := (step_cases hstep).txns_other
  refine ⟨max bound (actor + 1), fun tid htid => ?_⟩
  rw [hothers tid (by omega)]
  exact hbound tid (by omega)

end Retsu
