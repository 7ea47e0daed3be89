/-
  Transactions that adjust the same counter row at the same time.

  `adjust_queue_priority_state` is two statements under READ COMMITTED: an UPDATE that may find no
  row, and then an INSERT with an ON CONFLICT clause.  Between them, and while it waits, another
  transaction may insert, commit or roll back the row.

  A call comes with the messages that its transaction takes out of a state and those that it puts
  into one, since the trigger computes the deltas from these.  `counter_upsert` says that whatever
  the interleaving, the row is what the committed transactions' calls make of it one after the
  other, in the order of their commits.
-/
import Retsu.Concurrency.Execution
import Retsu.Concurrency.LockTable
import Retsu.Concurrency.RowVersion
import Retsu.SessionInvariant

namespace Retsu

open Relational Concurrency

/-! ## Transactions -/

def countOf (counts : StateCounts) : MessageState → Int
  | .ready => counts.1
  | .inFlight => counts.2

/-- Where a transaction is; the phases with a delta are those of a running call. -/
inductive AdjustPhase
  | idle
  /-- The UPDATE has not taken its snapshot yet. -/
  | updating (delta : StateCounts)
  /-- The UPDATE has found the row in its snapshot, or has not. -/
  | scanning (delta : StateCounts) (found : Bool)
  /-- The UPDATE was not `FOUND`. -/
  | inserting (delta : StateCounts)
  | failed (error : SqlError)
  | committed
  | aborted
deriving DecidableEq

/-- The transaction can go on. -/
def AdjustPhase.active : AdjustPhase → Bool
  | idle | updating _ | scanning _ _ | inserting _ => true
  | failed _ | committed | aborted => false

def AdjustPhase.ended : AdjustPhase → Bool
  | committed | aborted => true
  | _ => false

/-- The delta of the running call. -/
def AdjustPhase.running : AdjustPhase → List StateCounts
  | updating delta | scanning delta _ | inserting delta => [delta]
  | _ => []

structure AdjustTxn where
  phase : AdjustPhase
  /-- The deltas of the calls, the running one last. -/
  calls : List StateCounts
  /-- The messages that it has taken out of each state. -/
  left : MessageState → Finset Uuid
  /-- The messages that it has put into each state. -/
  entered : MessageState → Finset Uuid

def AdjustTxn.initial : AdjustTxn := ⟨.idle, [], fun _ => ∅, fun _ => ∅⟩

/-- `(ready_delta, in_flight_delta)` for messages that leave and enter the states. -/
def stateDelta (left entered : MessageState → Finset Uuid) : StateCounts :=
  ((entered .ready).card - (left .ready).card, (entered .inFlight).card - (left .inFlight).card)

def AdjustTxn.call (t : AdjustTxn) (left entered : MessageState → Finset Uuid) : AdjustTxn where
  phase := .updating (stateDelta left entered)
  calls := t.calls ++ [stateDelta left entered]
  left state := t.left state ∪ left state
  entered state := t.entered state ∪ entered state

/-! ## Statements -/

/-- `UPDATE … SET ready_count = ready_count + ready_delta, …`, on this version of the row. -/
def updateShard (key : ShardKey) (counts delta : StateCounts) : Except SqlError StateCounts := do
  checkRow queuePriorityStateShardChecks ⟨key, counts + delta⟩
  return counts + delta

/-- `INSERT … ON CONFLICT (queue_id, priority, shard) DO UPDATE`; `existing` is the row it
    conflicts with. -/
def upsertShard (queues : List QueueRow) (key : ShardKey) (existing : Option StateCounts)
    (delta : StateCounts) : Except SqlError StateCounts := do
  checkRow queuePriorityStateShardChecks ⟨key, delta⟩
  match existing with
  | some counts => updateShard key counts delta
  | none =>
    require (queueExists queues key.queueId)
      (.foreignKeyViolation "queue_priority_state_shard_queue_id_fkey")
    return delta

/-- What the call does when its UPDATE was not `FOUND`. -/
def afterNotFound (delta : StateCounts) : AdjustPhase :=
  if delta.1 < 0 ∨ delta.2 < 0 then
    .failed (.raised "cannot decrement missing queue priority state shard")
  else .inserting delta

/-! ## The system -/

/-- One counter row, the messages that are committed in its states, and the transactions. -/
structure ShardSystem where
  row : VersionedRow StateCounts Nat
  messages : MessageState → Finset Uuid
  /-- The row locks of the messages. -/
  locks : LockTable Uuid Nat
  txns : Nat → AdjustTxn
  /-- The committed transactions, in the order of their commits. -/
  commits : List Nat

namespace ShardSystem

def start (initial : Option StateCounts) (messages : MessageState → Finset Uuid) : ShardSystem where
  row := .initial initial
  messages := messages
  locks := .empty
  txns _ := .initial
  commits := []

def setTxn (s : ShardSystem) (tid : Nat) (t : AdjustTxn) : ShardSystem :=
  { s with txns := fun i => if i = tid then t else s.txns i }

def setPhase (s : ShardSystem) (tid : Nat) (phase : AdjustPhase) : ShardSystem :=
  s.setTxn tid { s.txns tid with phase }

/-- The transaction has locked the message, which is committed in this state and has not left it
    yet. -/
def Leavable (s : ShardSystem) (tid : Nat) (state : MessageState) (id : Uuid) : Prop :=
  s.locks id = some tid ∧ id ∈ s.messages state ∧ id ∉ (s.txns tid).left state

/-- A transaction takes out of a state only messages that it has locked and that were committed in
    this state. -/
def CanLeave (s : ShardSystem) (tid : Nat) (left : MessageState → Finset Uuid) : Prop :=
  ∀ state, ∀ id ∈ left state, s.Leavable tid state id

instance (s : ShardSystem) (tid : Nat) (state : MessageState) (id : Uuid) :
    Decidable (s.Leavable tid state id) := inferInstanceAs (Decidable (_ ∧ _ ∧ _))

-- by the elements of the sets: the search would go through all UUIDs
instance (s : ShardSystem) (tid : Nat) (left : MessageState → Finset Uuid) (state : MessageState) :
    Decidable (∀ id ∈ left state, s.Leavable tid state id) := Finset.decidableDforallFinset

instance (s : ShardSystem) (tid : Nat) (left : MessageState → Finset Uuid) :
    Decidable (s.CanLeave tid left) :=
  decidable_of_iff
    ((∀ id ∈ left .ready, s.Leavable tid .ready id) ∧
      ∀ id ∈ left .inFlight, s.Leavable tid .inFlight id)
    ⟨fun h state => match state with | .ready => h.1 | .inFlight => h.2,
      fun h => ⟨h .ready, h .inFlight⟩⟩

/-- The end of the UPDATE or of the INSERT, and with it of the call. -/
def finish (s : ShardSystem) (tid : Nat) : Except SqlError StateCounts → ShardSystem
  | .ok counts => { s with row := s.row.write tid counts }.setPhase tid .idle
  | .error e => s.setPhase tid (.failed e)

def commit (s : ShardSystem) (tid : Nat) : ShardSystem :=
  { s with
    row := s.row.commit tid
    messages := fun state =>
      (s.messages state \ (s.txns tid).left state) ∪ (s.txns tid).entered state
    locks := s.locks.release tid
    commits := s.commits ++ [tid] }.setPhase tid .committed

def abort (s : ShardSystem) (tid : Nat) : ShardSystem :=
  { s with row := s.row.abort tid, locks := s.locks.release tid }.setPhase tid .aborted

end ShardSystem

inductive AdjustAction
  /-- A statement of the transaction locks a message. -/
  | lock (tid : Nat) (id : Uuid)
  | call (tid : Nat) (left entered : MessageState → Finset Uuid)
  | snapshot (tid : Nat)
  | update (tid : Nat)
  | insert (tid : Nat)
  | commit (tid : Nat)
  | abort (tid : Nat)

/-- One step; a statement that waits for another transaction has none. -/
def ShardSystem.step (queues : List QueueRow) (key : ShardKey) (s : ShardSystem) :
    AdjustAction → Option ShardSystem
  | .lock tid id =>
    if (s.txns tid).phase = .idle ∧ s.locks.blocks tid id = false then
      some { s with locks := s.locks.acquire tid id }
    else none
  | .call tid left entered =>
    if (s.txns tid).phase = .idle ∧ s.CanLeave tid left then
      some (s.setTxn tid ((s.txns tid).call left entered))
    else none
  | .snapshot tid =>
    match (s.txns tid).phase with
    | .updating delta => some (s.setPhase tid (.scanning delta (s.row.visible tid)))
    | _ => none
  | .update tid =>
    match (s.txns tid).phase with
    | .scanning delta found =>
      if found && s.row.blocks tid then none
      else
        match if found then s.row.latest tid else none with
        | some counts => some (s.finish tid (updateShard key counts delta))
        | none => some (s.setPhase tid (afterNotFound delta))
    | _ => none
  | .insert tid =>
    match (s.txns tid).phase with
    | .inserting delta =>
      if s.row.blocks tid then none
      else some (s.finish tid (upsertShard queues key (s.row.latest tid) delta))
    | _ => none
  | .commit tid => if (s.txns tid).phase = .idle then some (s.commit tid) else none
  | .abort tid => if (s.txns tid).phase.ended then none else some (s.abort tid)

namespace ShardSystem

variable {queues : List QueueRow} {key : ShardKey} {s s' : ShardSystem} {tid other : Nat}
  {delta : StateCounts}

/-- What a step can do. -/
inductive Step (queues : List QueueRow) (key : ShardKey) (s : ShardSystem) : ShardSystem → Prop
  | lock {tid : Nat} {id : Uuid} (hidle : (s.txns tid).phase = .idle)
      (hfree : s.locks.blocks tid id = false) :
      Step queues key s { s with locks := s.locks.acquire tid id }
  | call {tid : Nat} {left entered : MessageState → Finset Uuid}
      (hidle : (s.txns tid).phase = .idle) (hleft : s.CanLeave tid left) :
      Step queues key s (s.setTxn tid ((s.txns tid).call left entered))
  | snapshot {tid : Nat} {delta : StateCounts} (hphase : (s.txns tid).phase = .updating delta) :
      Step queues key s (s.setPhase tid (.scanning delta (s.row.visible tid)))
  | updated {tid : Nat} {counts delta : StateCounts}
      (hphase : (s.txns tid).phase = .scanning delta true) (hfree : s.row.blocks tid = false)
      (hlatest : s.row.latest tid = some counts) :
      Step queues key s (s.finish tid (updateShard key counts delta))
  | notFound {tid : Nat} {delta : StateCounts} {found : Bool}
      (hphase : (s.txns tid).phase = .scanning delta found)
      (hmissing : found = true → s.row.latest tid = none) :
      Step queues key s (s.setPhase tid (afterNotFound delta))
  | inserted {tid : Nat} {delta : StateCounts} (hphase : (s.txns tid).phase = .inserting delta)
      (hfree : s.row.blocks tid = false) :
      Step queues key s (s.finish tid (upsertShard queues key (s.row.latest tid) delta))
  | commit {tid : Nat} (hidle : (s.txns tid).phase = .idle) : Step queues key s (s.commit tid)
  | abort {tid : Nat} (hended : (s.txns tid).phase.ended = false) :
      Step queues key s (s.abort tid)

theorem step_cases {a : AdjustAction} (h : s.step queues key a = some s') :
    Step queues key s s' := by
  cases a with
  | lock tid id =>
    obtain ⟨⟨hidle, hfree⟩, h⟩ := Option.ite_none_right_eq_some.mp h
    obtain rfl := Option.some.inj h
    exact .lock hidle hfree
  | call tid left entered =>
    obtain ⟨⟨hidle, hleft⟩, h⟩ := Option.ite_none_right_eq_some.mp h
    obtain rfl := Option.some.inj h
    exact .call hidle hleft
  | snapshot tid =>
    simp only [step] at h
    split at h
    · rename_i delta hphase
      obtain rfl := Option.some.inj h
      exact .snapshot hphase
    · simp at h
  | update tid =>
    simp only [step] at h
    split at h
    · rename_i delta found hphase
      obtain ⟨hfree, h⟩ := Option.ite_none_left_eq_some.mp h
      split at h
      · rename_i counts hlatest
        obtain rfl := Option.some.inj h
        obtain ⟨rfl, hlatest⟩ := Option.ite_none_right_eq_some.mp hlatest
        exact .updated hphase (by simpa using hfree) hlatest
      · rename_i hlatest
        obtain rfl := Option.some.inj h
        exact .notFound hphase fun hfound => by simpa [hfound] using hlatest
    · simp at h
  | insert tid =>
    simp only [step] at h
    split at h
    · rename_i delta hphase
      obtain ⟨hfree, h⟩ := Option.ite_none_left_eq_some.mp h
      obtain rfl := Option.some.inj h
      exact .inserted hphase (by simpa using hfree)
    · simp at h
  | commit tid =>
    obtain ⟨hidle, h⟩ := Option.ite_none_right_eq_some.mp h
    obtain rfl := Option.some.inj h
    exact .commit hidle
  | abort tid =>
    obtain ⟨hended, h⟩ := Option.ite_none_left_eq_some.mp h
    obtain rfl := Option.some.inj h
    exact .abort (by simpa using hended)

end ShardSystem

/-! ## Calls one after the other -/

/-- The rows of the table that have the key: one, or none. -/
def shardRows (key : ShardKey) (counts : Option StateCounts) : List QueuePriorityStateShard :=
  (counts.map (QueuePriorityStateShard.mk key)).toList

/-- The calls, by the function that adjusts one row. -/
def adjustAll (queues : List QueueRow) (key : ShardKey) (calls : List StateCounts)
    (shards : List QueuePriorityStateShard) : Except SqlError (List QueuePriorityStateShard) :=
  calls.foldlM (fun shards delta => adjustQueuePriorityState queues shards (key, delta)) shards

/-- The errors that would say that the counters and the messages have drifted apart. -/
def rollupDrift : List SqlError := [
  .raised "cannot decrement missing queue priority state shard",
  .checkViolation "queue_priority_state_shard_ready_count_non_negative",
  .checkViolation "queue_priority_state_shard_in_flight_count_non_negative"]

section Statements

variable {queues : List QueueRow} {key : ShardKey} {counts delta new : StateCounts}
  {existing : Option StateCounts} {e : SqlError}

theorem updateShard_eq_ok : updateShard key counts delta = .ok new ↔
    Checked queuePriorityStateShardChecks ⟨key, counts + delta⟩ ∧ counts + delta = new := by
  rw [updateShard, guard_eq_ok, checkRow_eq_ok, pure_eq_ok]

theorem findShard_shardRows :
    findShard (shardRows key existing) key = existing.map (QueuePriorityStateShard.mk key) := by
  cases existing with
  | none => rfl
  | some counts => simp [shardRows, findShard]

/-- The UPDATE writes what the adjustment of the row would. -/
theorem adjust_of_updateShard (h : updateShard key counts delta = .ok new) :
    adjustQueuePriorityState queues (shardRows key (some counts)) (key, delta) =
      .ok (shardRows key (some new)) := by
  obtain ⟨hchecked, rfl⟩ := updateShard_eq_ok.mp h
  unfold adjustQueuePriorityState
  rw [findShard_shardRows]
  refine guard_eq_ok.mpr ⟨checkRow_eq_ok.mpr hchecked, pure_eq_ok.mpr ?_⟩
  simp [shardRows]

/-- So does the INSERT, whether the row is there or not. -/
theorem adjust_of_upsertShard (hdelta : 0 ≤ delta)
    (h : upsertShard queues key existing delta = .ok new) :
    adjustQueuePriorityState queues (shardRows key existing) (key, delta) =
      .ok (shardRows key (some new)) := by
  obtain ⟨hproposed, h⟩ := guard_eq_ok.mp h
  cases existing with
  | some counts => exact adjust_of_updateShard h
  | none =>
    obtain ⟨hqueue, h⟩ := guard_eq_ok.mp h
    obtain rfl := Except.ok.inj h
    have hpositive : ¬(delta.1 < 0 ∨ delta.2 < 0) := by
      have hready : 0 ≤ delta.1 := hdelta.1
      have hinFlight : 0 ≤ delta.2 := hdelta.2
      omega
    unfold adjustQueuePriorityState
    rw [findShard_shardRows]
    exact guard_eq_ok.mpr ⟨require_eq_ok.mpr hpositive,
      guard_eq_ok.mpr ⟨hproposed, guard_eq_ok.mpr ⟨hqueue, rfl⟩⟩⟩

/-- An adjustment adds its delta; an absent row counts zero. -/
theorem adjust_shardRows {shards : List QueuePriorityStateShard}
    (h : adjustQueuePriorityState queues (shardRows key existing) (key, delta) = .ok shards) :
    shards = shardRows key (some (existing.getD 0 + delta)) := by
  unfold adjustQueuePriorityState at h
  rw [findShard_shardRows] at h
  cases existing with
  | some counts =>
    obtain ⟨-, h⟩ := guard_eq_ok.mp h
    obtain rfl := Except.ok.inj h
    simp [shardRows]
  | none =>
    obtain ⟨-, h⟩ := guard_eq_ok.mp h
    obtain ⟨-, h⟩ := guard_eq_ok.mp h
    obtain ⟨-, h⟩ := guard_eq_ok.mp h
    obtain rfl := Except.ok.inj h
    simp [shardRows]

theorem shardRows_injective : Function.Injective (shardRows key) := by
  intro a b h
  cases a <;> cases b <;> simp_all [shardRows]

/-- Adjustments one after the other add up. -/
theorem adjustAll_sum {calls : List StateCounts} {final : Option StateCounts}
    (h : adjustAll queues key calls (shardRows key existing) = .ok (shardRows key final)) :
    final.getD 0 = existing.getD 0 + calls.sum := by
  induction calls generalizing existing with
  | nil =>
    rw [shardRows_injective (Except.ok.inj h), List.sum_nil, add_zero]
  | cons delta calls ih =>
    obtain ⟨shards, hadjust, hrest⟩ := bind_eq_ok.mp h
    rw [adjust_shardRows hadjust] at hrest
    rw [ih hrest, Option.getD_some, List.sum_cons, add_assoc]

theorem adjustAll_append {calls more : List StateCounts} {shards mid : List QueuePriorityStateShard}
    (h : adjustAll queues key calls shards = .ok mid) :
    adjustAll queues key (calls ++ more) shards = adjustAll queues key more mid := by
  rw [adjustAll, List.foldlM_append, ← adjustAll, h]
  rfl

/-- A row without negative counts is not rejected for its counts. -/
theorem checkRow_not_drift (hpositive : 0 ≤ counts)
    (h : checkRow queuePriorityStateShardChecks ⟨key, counts⟩ = .error e) : e ∉ rollupDrift := by
  obtain ⟨c, hc, rfl, hviolated⟩ := checkRow_eq_error h
  have hready : 0 ≤ counts.1 := hpositive.1
  have hinFlight : 0 ≤ counts.2 := hpositive.2
  simp only [queuePriorityStateShardChecks, List.mem_cons, List.not_mem_nil, or_false] at hc
  rcases hc with rfl | rfl | rfl | rfl
  · decide
  · decide
  · exact absurd (decide_eq_true hready) hviolated
  · exact absurd (decide_eq_true hinFlight) hviolated

theorem updateShard_not_drift (hpositive : 0 ≤ counts + delta)
    (h : updateShard key counts delta = .error e) : e ∉ rollupDrift := by
  rcases guard_eq_error.mp h with h | ⟨-, h⟩
  · exact checkRow_not_drift hpositive h
  · simp [pure, Except.pure] at h

theorem upsertShard_not_drift (hdelta : 0 ≤ delta) (hpositive : 0 ≤ existing.getD 0 + delta)
    (h : upsertShard queues key existing delta = .error e) : e ∉ rollupDrift := by
  rcases guard_eq_error.mp h with h | ⟨-, h⟩
  · exact checkRow_not_drift hdelta h
  · cases existing with
    | some counts => exact updateShard_not_drift hpositive h
    | none =>
      rcases guard_eq_error.mp h with h | ⟨-, h⟩
      · obtain ⟨-, rfl⟩ := require_eq_error.mp h
        decide
      · simp [pure, Except.pure] at h

end Statements

/-! ## The invariant -/

/-- The counts cover the messages that are committed in each state. -/
def Covers (counts : Option StateCounts) (messages : MessageState → Finset Uuid) : Prop :=
  ∀ state, ((messages state).card : Int) ≤ countOf (counts.getD 0) state

theorem Covers.nonneg {counts : Option StateCounts} {messages : MessageState → Finset Uuid}
    (h : Covers counts messages) : 0 ≤ counts.getD 0 :=
  ⟨(Int.natCast_nonneg _).trans (h .ready), (Int.natCast_nonneg _).trans (h .inFlight)⟩

/-- Where messages are committed there is a row. -/
theorem Covers.present {counts : Option StateCounts} {messages : MessageState → Finset Uuid}
    (h : Covers counts messages) {state : MessageState} {id : Uuid} (hid : id ∈ messages state) :
    counts ≠ none := by
  rintro rfl
  have hcard : (messages state).card ≠ 0 := Finset.card_ne_zero_of_mem hid
  have hcount := h state
  have hzero : countOf (Option.getD none 0) state = 0 := by cases state <;> rfl
  omega

/-- What holds of a transaction until it fails or ends. -/
structure ShardSystem.TxnInv (queues : List QueueRow) (key : ShardKey) (s : ShardSystem) (tid : Nat)
    (t : AdjustTxn) : Prop where
  /-- The finished calls lead from the committed row to the one that the transaction sees. -/
  serial : ∃ done, t.calls = done ++ t.phase.running ∧
    adjustAll queues key done (shardRows key s.row.committed) =
      .ok (shardRows key (s.row.latest tid)) ∧
    (s.row.writtenBy tid = none → done = [])
  counted : ∀ state, ((t.entered state).card : Int) ≤
    countOf t.calls.sum state + (t.left state).card
  left : ∀ state, ∀ id ∈ t.left state, s.locks id = some tid ∧ id ∈ s.messages state
  /-- Only messages that have left a state make its count go down. -/
  decrement : ∀ delta, t.phase = .updating delta → ∀ state, countOf delta state < 0 →
    (t.left state).Nonempty
  found : ∀ delta, t.phase = .scanning delta true → s.row.latest tid ≠ none
  notFound : ∀ delta, t.phase = .scanning delta false → 0 ≤ delta
  inserting : ∀ delta, t.phase = .inserting delta → 0 ≤ delta

/-- The invariant of the system, started with the row `initial`. -/
structure ShardSystem.Inv (queues : List QueueRow) (key : ShardKey) (initial : Option StateCounts)
    (s : ShardSystem) : Prop where
  covers : Covers s.row.committed s.messages
  written : ∀ tid counts, s.row.writtenBy tid = some counts → 0 ≤ counts
  active : ∀ tid, (s.txns tid).phase.active → s.TxnInv queues key tid (s.txns tid)
  failed : ∀ tid e, (s.txns tid).phase = .failed e → e ∉ rollupDrift
  ended : ∀ tid, (s.txns tid).phase.ended → s.row.writtenBy tid = none
  nodup : s.commits.Nodup
  committed : ∀ tid, tid ∈ s.commits ↔ (s.txns tid).phase = .committed
  serial : adjustAll queues key (s.commits.flatMap fun tid => (s.txns tid).calls)
    (shardRows key initial) = .ok (shardRows key s.row.committed)

theorem countOf_add (a b : StateCounts) (state : MessageState) :
    countOf (a + b) state = countOf a state + countOf b state := by cases state <;> rfl

theorem countOf_stateDelta (left entered : MessageState → Finset Uuid) (state : MessageState) :
    countOf (stateDelta left entered) state = (entered state).card - (left state).card := by
  cases state <;> rfl

theorem nonneg_of_countOf {counts : StateCounts} (h : ∀ state, 0 ≤ countOf counts state) :
    0 ≤ counts := ⟨h .ready, h .inFlight⟩

namespace ShardSystem

variable {queues : List QueueRow} {key : ShardKey} {initial : Option StateCounts}
  {s s' : ShardSystem} {tid other : Nat} {t : AdjustTxn} {delta : StateCounts}

/-- What a running call is about to write is not negative. -/
theorem TxnInv.nonneg (h : s.TxnInv queues key tid t) (hcovers : Covers s.row.committed s.messages)
    (hrunning : t.phase.running = [delta]) : 0 ≤ (s.row.latest tid).getD 0 + delta := by
  obtain ⟨done, hcalls, hserial, -⟩ := h.serial
  have hlatest := adjustAll_sum hserial
  have hsum : (s.row.latest tid).getD 0 + delta = s.row.committed.getD 0 + t.calls.sum := by
    rw [hcalls, hrunning, List.sum_append, List.sum_singleton, hlatest, add_assoc]
  rw [hsum]
  refine nonneg_of_countOf fun state => ?_
  have hcover := hcovers state
  have hcounted := h.counted state
  have hleft : (t.left state).card ≤ (s.messages state).card :=
    Finset.card_le_card fun id hid => (h.left state id hid).2
  rw [countOf_add]
  omega

/-- The transaction keeps its invariant when others take their steps. -/
theorem TxnInv.frame (h : s.TxnInv queues key tid t)
    (hwritten : s'.row.writtenBy tid = s.row.writtenBy tid)
    (hcommitted : s'.row.committed = s.row.committed ∨ s.row.writtenBy tid = none)
    (hpresent : s.row.committed ≠ none → s'.row.committed ≠ none)
    (hleft : ∀ state, ∀ id ∈ t.left state, s.locks id = some tid → id ∈ s.messages state →
      s'.locks id = some tid ∧ id ∈ s'.messages state) :
    s'.TxnInv queues key tid t where
  serial := by
    obtain ⟨done, hcalls, hserial, hdone⟩ := h.serial
    refine ⟨done, hcalls, ?_, fun hnone => hdone (hwritten ▸ hnone)⟩
    rcases hcommitted with hsame | hnone
    · rw [VersionedRow.latest, hwritten, hsame]
      exact hserial
    · obtain rfl := hdone hnone
      rw [VersionedRow.latest, hwritten, hnone, Option.none_or]
      rfl
  counted := h.counted
  left state id hid := by
    obtain ⟨hlock, hmessage⟩ := h.left state id hid
    exact hleft state id hid hlock hmessage
  decrement := h.decrement
  found delta hphase := by
    have hlatest := h.found delta hphase
    rw [VersionedRow.latest] at hlatest ⊢
    rw [hwritten]
    cases hw : s.row.writtenBy tid with
    | some counts => simp
    | none =>
      rw [hw, Option.none_or] at hlatest
      rw [Option.none_or]
      exact hpresent hlatest
  notFound := h.notFound
  inserting := h.inserting

@[simp] theorem setTxn_self : (s.setTxn tid t).txns tid = t := if_pos rfl

theorem setTxn_other (hne : other ≠ tid) : (s.setTxn tid t).txns other = s.txns other := if_neg hne

/-- A step of one transaction that is not its commit: what is left is to look at this
    transaction. -/
theorem Inv.advance (h : s.Inv queues key initial) (tid : Nat)
    (hold : (s.txns tid).phase ≠ .committed) (hnew : (s'.txns tid).phase ≠ .committed)
    (hothers : ∀ other, other ≠ tid → s'.txns other = s.txns other)
    (hcommits : s'.commits = s.commits) (hcommitted : s'.row.committed = s.row.committed)
    (hmessages : s'.messages = s.messages)
    (hrow : ∀ other, other ≠ tid → s'.row.writtenBy other = s.row.writtenBy other)
    (hlocks : ∀ other id, other ≠ tid → s.locks id = some other → s'.locks id = some other)
    (hwritten : ∀ counts, s'.row.writtenBy tid = some counts → 0 ≤ counts)
    (hactive : (s'.txns tid).phase.active → s'.TxnInv queues key tid (s'.txns tid))
    (hfailed : ∀ e, (s'.txns tid).phase = .failed e → e ∉ rollupDrift)
    (hended : (s'.txns tid).phase.ended → s'.row.writtenBy tid = none) :
    s'.Inv queues key initial where
  covers := by
    rw [hcommitted, hmessages]
    exact h.covers
  written other counts hcounts := by
    by_cases hne : other = tid
    · subst hne
      exact hwritten counts hcounts
    · exact h.written other counts (hrow other hne ▸ hcounts)
  active other hphase := by
    by_cases hne : other = tid
    · subst hne
      exact hactive hphase
    · rw [hothers other hne] at hphase ⊢
      refine (h.active other hphase).frame (hrow other hne) (Or.inl hcommitted)
        (fun hpresent => hcommitted.symm ▸ hpresent) ?_
      intro state id _ hlock hmessage
      exact ⟨hlocks other id hne hlock, hmessages.symm ▸ hmessage⟩
  failed other e hphase := by
    by_cases hne : other = tid
    · subst hne
      exact hfailed e hphase
    · exact h.failed other e (hothers other hne ▸ hphase)
  ended other hphase := by
    by_cases hne : other = tid
    · subst hne
      exact hended hphase
    · rw [hrow other hne]
      exact h.ended other (hothers other hne ▸ hphase)
  nodup := hcommits.symm ▸ h.nodup
  committed other := by
    rw [hcommits, h.committed]
    by_cases hne : other = tid
    · subst hne
      exact iff_of_false hold hnew
    · rw [hothers other hne]
  serial := by
    have hcalls : (s.commits.flatMap fun tid => (s'.txns tid).calls) =
        s.commits.flatMap fun tid => (s.txns tid).calls := by
      refine List.flatMap_congr fun other hother => ?_
      have hne : other ≠ tid := fun heq => hold ((h.committed tid).mp (heq ▸ hother))
      rw [hothers other hne]
    rw [hcommits, hcalls, hcommitted]
    exact h.serial

/-! ## One step -/

theorem ne_committed {phase : AdjustPhase} (h : phase.active ∨ phase.ended = false) :
    phase ≠ .committed := by
  rintro rfl
  simp [AdjustPhase.active, AdjustPhase.ended] at h

/-- A step that changes nothing but the record of its transaction. -/
theorem Inv.setTxn (h : s.Inv queues key initial) (hold : (s.txns tid).phase.active)
    (hended : t.phase.ended = false) (hactive : t.phase.active → s.TxnInv queues key tid t)
    (hfailed : ∀ e, t.phase = .failed e → e ∉ rollupDrift) :
    (s.setTxn tid t).Inv queues key initial := by
  refine h.advance tid (ne_committed (.inl hold)) ?_ (fun _ hne => setTxn_other hne) rfl rfl rfl
    (fun _ _ => rfl) (fun _ _ _ hlock => hlock) (h.written tid) ?_ ?_ ?_
  · rw [setTxn_self]
    exact ne_committed (.inr hended)
  · rw [setTxn_self]
    exact fun hphase => (hactive hphase).frame rfl (Or.inl rfl) (fun hpresent => hpresent)
      fun _ _ _ hlock hmessage => ⟨hlock, hmessage⟩
  · rw [setTxn_self]
    exact hfailed
  · rw [setTxn_self, hended]
    simp

theorem Inv.lock (h : s.Inv queues key initial) {id : Uuid} (hidle : (s.txns tid).phase = .idle)
    (hfree : s.locks.blocks tid id = false) :
    ({ s with locks := s.locks.acquire tid id } : ShardSystem).Inv queues key initial := by
  have hactive : (s.txns tid).phase.active := by simp [hidle, AdjustPhase.active]
  refine h.advance tid (ne_committed (.inl hactive)) (ne_committed (.inl hactive))
    (fun _ _ => rfl) rfl rfl rfl (fun _ _ => rfl)
    (fun _ _ hne hlock => (LockTable.acquire_other hfree hne).mpr hlock) (h.written tid) ?_
    (h.failed tid) (h.ended tid)
  intro hphase
  exact (h.active tid hphase).frame rfl (Or.inl rfl) (fun hpresent => hpresent)
    fun _ _ _ hlock hmessage => ⟨LockTable.acquire_own hlock, hmessage⟩

theorem Inv.call (h : s.Inv queues key initial) {left entered : MessageState → Finset Uuid}
    (hidle : (s.txns tid).phase = .idle) (hleft : s.CanLeave tid left) :
    (s.setTxn tid ((s.txns tid).call left entered)).Inv queues key initial := by
  have hold : (s.txns tid).phase.active := by simp [hidle, AdjustPhase.active]
  have ht := h.active tid hold
  refine h.setTxn hold rfl (fun _ => ?_) (fun e he => by simp [AdjustTxn.call] at he)
  refine ⟨?_, fun state => ?_, fun state id hid => ?_, fun delta hphase state hneg => ?_,
    by simp [AdjustTxn.call], by simp [AdjustTxn.call], by simp [AdjustTxn.call]⟩
  · -- all earlier calls are finished
    obtain ⟨done, hcalls, hserial⟩ := ht.serial
    rw [hidle] at hcalls
    replace hcalls : (s.txns tid).calls = done := hcalls.trans (List.append_nil done)
    exact ⟨done, congrArg (· ++ [stateDelta left entered]) hcalls, hserial⟩
  · have hcounted := ht.counted state
    have hdisjoint : Disjoint ((s.txns tid).left state) (left state) :=
      Finset.disjoint_right.mpr fun id hid => (hleft state id hid).2.2
    have hentered : ((s.txns tid).entered state ∪ entered state).card ≤
        ((s.txns tid).entered state).card + (entered state).card := Finset.card_union_le _ _
    show (((s.txns tid).entered state ∪ entered state).card : Int) ≤
      countOf ((s.txns tid).calls ++ [stateDelta left entered]).sum state +
        ((s.txns tid).left state ∪ left state).card
    rw [Finset.card_union_of_disjoint hdisjoint, List.sum_append, List.sum_singleton, countOf_add,
      countOf_stateDelta]
    omega
  · rcases Finset.mem_union.mp hid with hid | hid
    · exact ht.left state id hid
    · exact ⟨(hleft state id hid).1, (hleft state id hid).2.1⟩
  · obtain rfl : stateDelta left entered = delta := AdjustPhase.updating.inj hphase
    rw [countOf_stateDelta] at hneg
    have hpositive : 0 < (left state).card := by omega
    exact (Finset.card_pos.mp hpositive).mono Finset.subset_union_right

theorem Inv.snapshot (h : s.Inv queues key initial)
    (hphase : (s.txns tid).phase = .updating delta) :
    (s.setPhase tid (.scanning delta (s.row.visible tid))).Inv queues key initial := by
  have hold : (s.txns tid).phase.active := by simp [hphase, AdjustPhase.active]
  have ht := h.active tid hold
  refine h.setTxn hold rfl (fun _ => ?_) (by simp)
  refine ⟨?_, ht.counted, ht.left, by simp, fun delta' hscanning => ?_,
    fun delta' hscanning => ?_, by simp⟩
  · have hserial := ht.serial
    rw [hphase] at hserial
    exact hserial
  · obtain ⟨-, hvisible⟩ := AdjustPhase.scanning.inj hscanning
    exact Option.isSome_iff_ne_none.mp hvisible
  · obtain ⟨rfl, hvisible⟩ := AdjustPhase.scanning.inj hscanning
    refine nonneg_of_countOf fun state => ?_
    by_contra hneg
    -- a message is committed in the state, so the snapshot has the row
    obtain ⟨id, hid⟩ := ht.decrement delta hphase state (by omega)
    have hpresent := h.covers.present (ht.left state id hid).2
    have hlatest : s.row.latest tid = none := by
      simpa [VersionedRow.visible] using hvisible
    rw [VersionedRow.latest, Option.or_eq_none_iff] at hlatest
    exact hpresent hlatest.2

theorem Inv.notFound (h : s.Inv queues key initial) {found : Bool}
    (hphase : (s.txns tid).phase = .scanning delta found)
    (hmissing : found = true → s.row.latest tid = none) :
    (s.setPhase tid (afterNotFound delta)).Inv queues key initial := by
  have hold : (s.txns tid).phase.active := by simp [hphase, AdjustPhase.active]
  have ht := h.active tid hold
  obtain rfl : found = false := by
    cases found with
    | false => rfl
    | true => exact absurd (hmissing rfl) (ht.found delta hphase)
  have hdelta := ht.notFound delta hphase
  have hinserting : afterNotFound delta = .inserting delta := by
    have hready : 0 ≤ delta.1 := hdelta.1
    have hinFlight : 0 ≤ delta.2 := hdelta.2
    exact if_neg (by omega)
  rw [hinserting]
  refine h.setTxn hold rfl (fun _ => ?_) (by simp)
  refine ⟨?_, ht.counted, ht.left, by simp, by simp, by simp, fun delta' hinserting => ?_⟩
  · have hserial := ht.serial
    rw [hphase] at hserial
    exact hserial
  · exact AdjustPhase.inserting.inj hinserting ▸ hdelta

/-- The statement that ends a call, whichever it is. -/
theorem Inv.finish (h : s.Inv queues key initial) (hold : (s.txns tid).phase.active)
    (hrunning : (s.txns tid).phase.running = [delta]) (hfree : s.row.blocks tid = false)
    {result : Except SqlError StateCounts}
    (hok : ∀ new, result = .ok new → adjustQueuePriorityState queues
      (shardRows key (s.row.latest tid)) (key, delta) = .ok (shardRows key (some new)))
    (herror : ∀ e, result = .error e → e ∉ rollupDrift) :
    (s.finish tid result).Inv queues key initial := by
  have ht := h.active tid hold
  cases result with
  | error e =>
    refine h.setTxn hold rfl (fun hactive => by simp [AdjustPhase.active] at hactive) ?_
    intro e' he'
    exact AdjustPhase.failed.inj he' ▸ herror e rfl
  | ok new =>
    have hadjust := hok new rfl
    have hnew : new = (s.row.latest tid).getD 0 + delta :=
      Option.some.inj (shardRows_injective (adjust_shardRows hadjust))
    refine h.advance tid (ne_committed (.inl hold)) ?_ (fun _ hne => setTxn_other hne) rfl
      VersionedRow.write_committed rfl ?_ (fun _ _ _ hlock => hlock) ?_ (fun _ => ?_) ?_ ?_
    · simp [ShardSystem.finish, setPhase]
    · intro other hne
      rw [VersionedRow.writtenBy_of_not_blocks hfree hne]
      exact VersionedRow.writtenBy_write_other hne
    · intro counts hcounts
      obtain rfl := Option.some.inj (VersionedRow.writtenBy_write.symm.trans hcounts)
      rw [hnew]
      exact ht.nonneg h.covers hrunning
    · obtain ⟨done, hcalls, hserial, -⟩ := ht.serial
      simp only [ShardSystem.finish, setPhase, setTxn_self]
      refine ⟨⟨done ++ [delta], ?_, ?_, ?_⟩, ht.counted, ht.left, by simp, by simp, by simp,
        by simp⟩
      · rw [hrunning] at hcalls
        exact hcalls.trans (List.append_nil _).symm
      · refine (adjustAll_append hserial).trans ?_
        exact bind_eq_ok.mpr ⟨_, hadjust, congrArg (fun o => Except.ok (shardRows key o))
          VersionedRow.latest_write.symm⟩
      · intro hnone
        exact absurd (VersionedRow.writtenBy_write.symm.trans hnone) (by simp)
    · simp [ShardSystem.finish, setPhase]
    · simp [ShardSystem.finish, setPhase, AdjustPhase.ended]

theorem Inv.abort (h : s.Inv queues key initial) (hended : (s.txns tid).phase.ended = false) :
    (s.abort tid).Inv queues key initial := by
  have hself : ((s.abort tid).txns tid).phase = .aborted := by
    simp [ShardSystem.abort, setPhase]
  refine h.advance tid (ne_committed (.inr hended)) (by simp [hself])
    (fun _ hne => setTxn_other hne) rfl VersionedRow.abort_committed rfl
    (fun _ hne => VersionedRow.writtenBy_abort_other hne)
    (fun _ _ hne hlock => LockTable.release_eq_some.mpr ⟨hlock, hne⟩) (fun counts hcounts => ?_)
    (by simp [hself, AdjustPhase.active]) (by simp [hself])
    (fun _ => VersionedRow.writtenBy_abort_self)
  exact absurd (VersionedRow.writtenBy_abort_self.symm.trans hcounts) (by simp)

theorem Inv.commit (h : s.Inv queues key initial) (hidle : (s.txns tid).phase = .idle) :
    (s.commit tid).Inv queues key initial := by
  have hold : (s.txns tid).phase.active := by simp [hidle, AdjustPhase.active]
  have ht := h.active tid hold
  obtain ⟨done, hcalls, hserial, -⟩ := ht.serial
  rw [hidle] at hcalls
  replace hcalls : (s.txns tid).calls = done := hcalls.trans (List.append_nil done)
  have hself : ((s.commit tid).txns tid).phase = .committed := by
    simp [ShardSystem.commit, setPhase]
  have hothers : ∀ other, other ≠ tid → (s.commit tid).txns other = s.txns other :=
    fun _ hne => setTxn_other hne
  have hnotMem : tid ∉ s.commits := fun hmem => ne_committed (.inl hold) ((h.committed tid).mp hmem)
  have hrow : (s.commit tid).row = s.row.commit tid := rfl
  refine ⟨fun state => ?_, fun other counts hcounts => ?_, fun other hphase => ?_,
    fun other e hphase => ?_, fun other hphase => ?_, ?_, fun other => ?_, ?_⟩
  · -- the counts move with the messages
    have hcover := h.covers state
    have hcounted := ht.counted state
    have hsum := congrArg (countOf · state) (adjustAll_sum hserial)
    have hleft : ((s.txns tid).left state) ⊆ s.messages state :=
      fun id hid => (ht.left state id hid).2
    have hcard := Finset.card_sdiff_add_card_eq_card hleft
    have hunion : ((s.messages state \ (s.txns tid).left state) ∪ (s.txns tid).entered state).card ≤
        (s.messages state \ (s.txns tid).left state).card + ((s.txns tid).entered state).card :=
      Finset.card_union_le _ _
    rw [hrow, VersionedRow.commit_committed]
    rw [hcalls] at hcounted
    simp only [countOf_add] at hsum
    show (((s.messages state \ (s.txns tid).left state) ∪
      (s.txns tid).entered state).card : Int) ≤ _
    omega
  · rw [hrow] at hcounts
    by_cases hne : other = tid
    · subst hne
      exact absurd (VersionedRow.writtenBy_commit_self.symm.trans hcounts) (by simp)
    · exact h.written other counts ((VersionedRow.commit_other hne).1 ▸ hcounts)
  · by_cases hne : other = tid
    · subst hne
      simp [hself, AdjustPhase.active] at hphase
    · rw [hothers other hne] at hphase ⊢
      refine (h.active other hphase).frame (VersionedRow.commit_other hne).1
        (VersionedRow.commit_other hne).2 VersionedRow.commit_committed_ne_none ?_
      intro state id _ hlock hmessage
      -- a message that another transaction has locked is not among those that leave
      refine ⟨LockTable.release_eq_some.mpr ⟨hlock, hne⟩,
        Finset.mem_union_left _ (Finset.mem_sdiff.mpr ⟨hmessage, fun hid => ?_⟩)⟩
      exact hne (Option.some.inj (hlock.symm.trans (ht.left state id hid).1))
  · by_cases hne : other = tid
    · subst hne
      simp [hself] at hphase
    · exact h.failed other e (hothers other hne ▸ hphase)
  · rw [hrow]
    by_cases hne : other = tid
    · subst hne
      exact VersionedRow.writtenBy_commit_self
    · rw [(VersionedRow.commit_other hne).1]
      exact h.ended other (hothers other hne ▸ hphase)
  · show (s.commits ++ [tid]).Nodup
    rw [← List.concat_eq_append]
    exact h.nodup.concat hnotMem
  · show other ∈ s.commits ++ [tid] ↔ _
    rw [List.mem_append, List.mem_singleton, h.committed]
    by_cases hne : other = tid
    · subst hne
      exact iff_of_true (Or.inr rfl) hself
    · rw [hothers other hne, or_iff_left hne]
  · have hsame : (s.commits.flatMap fun other => ((s.commit tid).txns other).calls) =
        s.commits.flatMap fun other => (s.txns other).calls := by
      refine List.flatMap_congr fun other hother => ?_
      rw [hothers other fun heq => hnotMem (heq ▸ hother)]
    have hown : ((s.commit tid).txns tid).calls = done := by
      rw [← hcalls]
      simp [ShardSystem.commit, setPhase]
    show adjustAll queues key ((s.commits ++ [tid]).flatMap _) _ = _
    rw [List.flatMap_append, hsame, adjustAll_append h.serial, List.flatMap_singleton, hown, hrow,
      VersionedRow.commit_committed]
    exact hserial

theorem Inv.step (h : s.Inv queues key initial) (hstep : Step queues key s s') :
    s'.Inv queues key initial := by
  cases hstep with
  | lock hidle hfree => exact h.lock hidle hfree
  | call hidle hleft => exact h.call hidle hleft
  | snapshot hphase => exact h.snapshot hphase
  | @updated tid counts delta hphase hfree hlatest =>
    have hold : (s.txns tid).phase.active := by simp [hphase, AdjustPhase.active]
    have hrunning : (s.txns tid).phase.running = [delta] := by simp [hphase, AdjustPhase.running]
    have hpositive := (h.active tid hold).nonneg h.covers hrunning
    rw [hlatest] at hpositive
    refine h.finish hold hrunning hfree (fun new hnew => ?_)
      (fun e he => updateShard_not_drift hpositive he)
    rw [hlatest]
    exact adjust_of_updateShard hnew
  | notFound hphase hmissing => exact h.notFound hphase hmissing
  | @inserted tid delta hphase hfree =>
    have hold : (s.txns tid).phase.active := by simp [hphase, AdjustPhase.active]
    have hrunning : (s.txns tid).phase.running = [delta] := by simp [hphase, AdjustPhase.running]
    have ht := h.active tid hold
    have hdelta := ht.inserting delta hphase
    exact h.finish hold hrunning hfree (fun new hnew => adjust_of_upsertShard hdelta hnew)
      (fun e he => upsertShard_not_drift hdelta (ht.nonneg h.covers hrunning) he)
  | commit hidle => exact h.commit hidle
  | abort hended => exact h.abort hended

theorem start_inv {messages : MessageState → Finset Uuid} (h : Covers initial messages) :
    (start initial messages).Inv queues key initial where
  covers := h
  written tid counts hcounts := by simp [start, VersionedRow.initial, VersionedRow.writtenBy] at hcounts
  active tid _ := {
    serial := ⟨[], rfl, rfl, fun _ => rfl⟩
    counted := fun state => by cases state <;> simp [start, AdjustTxn.initial, countOf]
    left := by simp [start, AdjustTxn.initial]
    decrement := by simp [start, AdjustTxn.initial]
    found := by simp [start, AdjustTxn.initial]
    notFound := by simp [start, AdjustTxn.initial]
    inserting := by simp [start, AdjustTxn.initial] }
  failed tid e he := by simp [start, AdjustTxn.initial] at he
  ended tid _ := rfl
  nodup := List.nodup_nil
  committed tid := by simp [start, AdjustTxn.initial]
  serial := rfl

/-- **The invariant holds in every run.** -/
theorem run_inv {messages : MessageState → Finset Uuid} (h : Covers initial messages)
    (run : Execution (fun s => s.step queues key) anyAction (start initial messages) s) :
    s.Inv queues key initial :=
  run.invariant (start_inv h) fun _ _ _ _ hinv _ hstep => hinv.step (step_cases hstep)

end ShardSystem

/-! ## Start -/

/-- The messages of a counter row that the table has in a state. -/
def Database.messagesIn (db : Database) (key : ShardKey) (state : MessageState) : Finset Uuid :=
  ((db.queueMessage.filter fun m => m.shardKey = key ∧ m.state = state).map (·.id)).toFinset

/-- The rollup covers the messages of every counter row, so every database is a start. -/
theorem Database.RollupValid.covers {db : Database} (h : db.RollupValid) (key : ShardKey) :
    Covers ((findShard db.queuePriorityStateShard key).map (·.counts)) (db.messagesIn key) := by
  intro state
  have hcard : (db.messagesIn key state).card ≤
      db.queueMessage.countP fun m => m.shardKey = key ∧ m.state = state := by
    rw [List.countP_eq_length_filter, ← List.length_map (·.id)]
    exact List.toFinset_card_le _
  have hstored : countOf (storedCounts db.queuePriorityStateShard key) state =
      db.queueMessage.countP fun m => m.shardKey = key ∧ m.state = state := by
    rw [h.rollup.stored]
    cases state <;> rfl
  show _ ≤ countOf (storedCounts db.queuePriorityStateShard key) state
  omega

/-! ## Counter upserts -/

/-- **Calls that run at the same time neither lose nor repeat a delta**: the committed row counts
    what it did at the start and the deltas of exactly the committed transactions, as if their
    calls had been made one after the other.  No call finds its row missing, and no version of the
    row is negative. -/
theorem counter_upsert (queues : List QueueRow) (key : ShardKey) (initial : Option StateCounts)
    (messages : MessageState → Finset Uuid) (hcovers : Covers initial messages) (s : ShardSystem)
    (run : Execution (fun s => s.step queues key) anyAction (.start initial messages) s) :
    s.row.committed.getD 0 =
        initial.getD 0 + (s.commits.flatMap fun tid => (s.txns tid).calls).sum ∧
      (s.commits.Nodup ∧ ∀ tid, tid ∈ s.commits ↔ (s.txns tid).phase = .committed) ∧
      adjustAll queues key (s.commits.flatMap fun tid => (s.txns tid).calls)
        (shardRows key initial) = .ok (shardRows key s.row.committed) ∧
      (∀ write ∈ s.row.uncommitted, (s.txns write.1).phase.ended = false) ∧
      (∀ tid e, (s.txns tid).phase = .failed e → e ∉ rollupDrift) ∧
      (∀ counts ∈ s.row.committed, 0 ≤ counts) ∧ ∀ write ∈ s.row.uncommitted, 0 ≤ write.2 := by
  have h := ShardSystem.run_inv hcovers run
  refine ⟨adjustAll_sum h.serial, ⟨h.nodup, h.committed⟩, h.serial, ?_, h.failed, ?_, ?_⟩
  · rintro ⟨tid, counts⟩ hwrite
    have hwritten := VersionedRow.writtenBy_eq_some.mpr hwrite
    by_contra hended
    rw [h.ended tid (Bool.not_eq_false _ ▸ hended)] at hwritten
    simp at hwritten
  · intro counts hcounts
    have hnonneg := h.covers.nonneg
    rw [hcounts] at hnonneg
    exact hnonneg
  · rintro ⟨tid, counts⟩ hwrite
    exact h.written tid counts (VersionedRow.writtenBy_eq_some.mpr hwrite)

/-- One message that enters or leaves a state. -/
def oneMessage (state : MessageState) (id : Uuid) : MessageState → Finset Uuid := fun state' =>
  if state' = state then {id} else ∅

/-- Three transactions find no row.  The one that inserts it is rolled back while the others
    wait, then each of these writes the row, and a fourth takes a message out again. -/
def missingRowRace : List AdjustAction :=
  let first (tid : Nat) (state : MessageState) (id : Uuid) : List AdjustAction :=
    [.call tid (fun _ => ∅) (oneMessage state id), .snapshot tid, .update tid]
  first 0 .ready 7 ++ first 1 .ready 39 ++ [.insert 0] ++ first 2 .inFlight 71 ++
    [.abort 0, .insert 1, .commit 1, .insert 2, .commit 2, .lock 3 39,
      .call 3 (oneMessage .ready 39) (fun _ => ∅), .snapshot 3, .update 3, .commit 3]

theorem counter_upsert_missingRowRace :
    ∃ s, runAllowed (ShardSystem.step [⟨1, "orders", 30, 5, 60, 0, 0⟩] ⟨1, 3, 7⟩) anyAction
        (.start none fun _ => ∅) missingRowRace = some s ∧
      s.row.committed = some (0, 1) ∧ s.commits = [1, 2, 3] ∧
      s.row.committed.getD 0 = 0 + (s.commits.flatMap fun tid => (s.txns tid).calls).sum := by
  have hrun : (runAllowed (ShardSystem.step [⟨1, "orders", 30, 5, 60, 0, 0⟩] ⟨1, 3, 7⟩) anyAction
      (.start none fun _ => ∅) missingRowRace).map (fun s => (s.row.committed, s.commits)) =
        some (some (0, 1), [1, 2, 3]) := by decide +kernel
  obtain ⟨s, hs, hend⟩ := Option.map_eq_some_iff.mp hrun
  obtain ⟨hrow, hcommits⟩ := Prod.mk.inj hend
  refine ⟨s, hs, hrow, hcommits, ?_⟩
  exact (counter_upsert _ _ none (fun _ => ∅) (fun state => by cases state <;> decide) s
    (execution_of_runAllowed hs)).1

end Retsu
