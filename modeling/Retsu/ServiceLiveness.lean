/-
  Requests come to an end.

  Of what is left to do, for the threads and for their transactions, every step but a new request
  and the passing of time makes less, so the service cannot work for ever on what it has accepted.
  And it is not stuck before: a thread that is not done goes on, or waits for a transaction that can
  go on.  The exceptions are a deadlock on counter rows, a transaction that has been aborted, and an
  identifier that has been drawn before.
-/
import Retsu.Progress
import Retsu.ServiceAcknowledgements

namespace Retsu

open Concurrency UseCases Program Relation

variable {order : TriggerOrder}

/-! ## What is left to do -/

/-- The action works on what has been accepted, or gives it up. -/
def ServiceAction.works : ServiceAction → Prop
  | .system a => a.works
  | .spawn _ _ => False
  | .read _ _ | .send _ _ | .reply _ | .fail _ | .drop _ => True

/-- The action of this thread, if nothing goes wrong. -/
def ServiceAction.Continues (id : Nat) : ServiceAction → Prop
  | .read actor _ | .send actor _ | .reply actor => actor = id
  | .system _ | .spawn _ _ | .fail _ | .drop _ => False

theorem Action.Continues.works {a : Action} {tid : Nat} (h : a.Continues tid) : a.works := by
  cases a <;> trivial

/-- The pieces of what is left: a transaction has so much to do, a thread this program, and its
    operation to send. -/
abbrev Piece := (Nat × Nat) ⊕ (Awaiting (Outcome × List Measurement) × Nat)

def Thread.piece (thread : Thread) : Piece :=
  .inr (thread.program, if thread.sent.isNone then 1 else 0)

namespace Service

variable {s s' : Service} {id : Nat}

/-- What is left to do for a transaction, or for a thread. -/
def left (s : Service) : Nat ⊕ Nat → Multiset Piece
  | .inl tid => (s.system.left tid).map .inl
  | .inr id => (s.threads id).elim 0 fun thread => {thread.piece}

/-- There are finitely many transactions and threads. -/
theorem Reachable.finite (h : s.Reachable order) :
    ∃ bound, (∀ tid ≥ bound, s.system.txns tid = none) ∧ ∀ id ≥ bound, s.threads id = none := by
  obtain ⟨txns, htxns⟩ := (Reachable.inv h).reachable.finite
  obtain ⟨threads, hthreads⟩ : ∃ bound, ∀ id ≥ bound, s.threads id = none := by
    refine h.invariant (I := fun s => ∃ bound, ∀ id ≥ bound, s.threads id = none)
      ⟨0, fun _ _ => rfl⟩ fun s a s' _ ih _ hstep => ?_
    obtain ⟨bound, hbound⟩ := ih
    have hset : ∀ {actor : Nat} {thread : Option Thread} {s' : Service},
        s'.threads = (s.setThread actor thread).threads →
        ∃ bound, ∀ id ≥ bound, s'.threads id = none := by
      intro actor thread s' hthreads
      refine ⟨max bound (actor + 1), fun id hid => ?_⟩
      rw [hthreads]
      show (if id = actor then thread else s.threads id) = none
      rw [if_neg (by omega)]
      exact hbound id (by omega)
    cases step_cases hstep with
    | system => exact ⟨bound, hbound⟩
    | _ => exact hset rfl
  exact ⟨max txns threads, fun tid htid => htxns tid (by omega), fun id hid =>
    hthreads id (by omega)⟩

/-- The await of the thread has failed. -/
inductive Fails (s : Service) (thread : Thread) : Prop
  | aborted {tid : Nat} {t : Txn} (hsent : thread.sent = some tid)
      (ht : s.system.txns tid = some t) (hphase : t.phase = .aborted)
  /-- The identifiers of the operation have been drawn before, and it is not sent. -/
  | drawn {op : Operation} {next : Answer (.run op) → Awaiting (Outcome × List Measurement)}
      (hsent : thread.sent = none) (hprogram : thread.program = .await (.run op) next)
      (hused : s.system.unused op = false)

/-- What the processes and the database do of themselves.  The database aborts transactions that
    are in a deadlock, and no others. -/
def Proceeds (s : Service) : ServiceAction → Prop
  | .system (.abort tid) => TransGen s.system.CounterWaits tid tid
  | .system a => ∃ tid, a.Continues tid
  | .read _ _ | .send _ _ | .reply _ => True
  | .fail id => ∃ thread, s.threads id = some thread ∧ s.Fails thread
  | .spawn _ _ | .drop _ => False

theorem Proceeds.works {a : ServiceAction} (h : s.Proceeds a) : a.works := by
  cases a with
  | system a =>
    cases a with
    | abort => trivial
    | _ =>
      obtain ⟨tid, h⟩ := h
      exact h.works
  | spawn => exact h.elim
  | _ => trivial

/-- A response that has been committed is one to its operation. -/
theorem Inv.result (h : s.Inv order) {tid : Nat} {t : Txn} {response : Response}
    (ht : s.system.txns tid = some t) (hphase : t.phase = .committed response) :
    ∃ result, t.op.result? response = some result := by
  obtain ⟨e, he⟩ := h.commits tid t response ht hphase
  obtain ⟨u, hu, hop, -, huphase⟩ := h.committed _ he
  obtain rfl := Option.some.inj (ht.symm.trans hu)
  obtain rfl := Phase.committed.inj (hphase.symm.trans huphase)
  have hlog : e ∈ s.system.log := h.log ▸ List.mem_map_of_mem he
  obtain ⟨queues, -, heffect⟩ := ((Trace.of_log h.reachable).sound hlog).effect
  rw [hop]
  show ∃ result, e.op.result? e.response = some result
  generalize e.op = op at heffect ⊢
  generalize e.response = response at heffect ⊢
  generalize e.after = after at heffect
  cases heffect with
  | @failed op => cases op <;> exact ⟨_, rfl⟩
  | _ => exact ⟨_, rfl⟩

end Service

end Retsu
