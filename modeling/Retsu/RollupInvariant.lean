/-
  The rollup counts the message table.

  Abstractly the rollup is a function from counter rows to pairs of counts, and a trigger adds
  a delta to it.  `Represents shards f` says that the stored rows stand for the function `f`
  (an absent row for zero).  From there:

  1. `adjust_represents`: one adjustment that leaves no count negative succeeds and adds its
     delta at its key;
  2. `adjustAll_represents`: so does a list of adjustments with different keys;
  3. `fire_represents`: the triggers of one statement, in any order, add the difference
     between the counts of the table after and before it, and no order passes through a
     negative count, since a statement takes away only rows that are there.

  `rollup_exact` is the invariant over runs of arbitrary statements.
-/
import Mathlib.Algebra.Order.Group.Int
import Retsu.Statement

namespace Retsu

open Relational

/-! ## Stored counts as a function -/

/-- The counts stored for a key; an absent row counts zero. -/
def storedCounts (shards : List QueuePriorityStateShard) (key : ShardKey) : StateCounts :=
  ((findShard shards key).map (·.counts)).getD 0

/-- The rows stand for the function `counts`. -/
structure Represents (shards : List QueuePriorityStateShard) (counts : ShardKey → StateCounts) :
    Prop where
  keys : (shards.map (·.key)).Nodup
  checked : ∀ s ∈ shards, Checked queuePriorityStateShardChecks s
  stored : ∀ key, storedCounts shards key = counts key

/-- A key that a row may be inserted for. -/
structure ValidKey (queues : List QueueRow) (key : ShardKey) : Prop where
  priority : 1 ≤ key.priority ∧ key.priority ≤ 3
  shard : 0 ≤ key.shard ∧ key.shard ≤ 31
  queue : ∃ q ∈ queues, q.id = key.queueId

variable {queues : List QueueRow} {shards : List QueuePriorityStateShard}
  {counts : ShardKey → StateCounts}

theorem findShard_eq_some (h : (shards.map (·.key)).Nodup) {key : ShardKey}
    {s : QueuePriorityStateShard} :
    findShard shards key = some s ↔ s ∈ shards ∧ s.key = key :=
  find?_key_eq_some h

theorem findShard_eq_none {key : ShardKey} :
    findShard shards key = none ↔ ∀ s ∈ shards, s.key ≠ key := by
  simp [findShard]

theorem Represents.counts_nonneg (h : Represents shards counts) (key : ShardKey) :
    0 ≤ counts key := by
  rw [← h.stored key, storedCounts]
  cases hf : findShard shards key with
  | none => simp
  | some s =>
    obtain ⟨hs, -⟩ := (findShard_eq_some h.keys).mp hf
    have := QueuePriorityStateShard.checked_iff.mp (h.checked s hs)
    exact ⟨this.2.2.1, this.2.2.2⟩

/-- Storing new counts in the row of a key changes the function at that key only. -/
theorem storedCounts_map (h : (shards.map (·.key)).Nodup) {found : QueuePriorityStateShard}
    (hf : found ∈ shards) (value : StateCounts) (key : ShardKey) :
    storedCounts (shards.map fun s => if s.key = found.key then { found with counts := value } else s)
        key = if key = found.key then value else storedCounts shards key := by
  have hkeys : (shards.map fun s => if s.key = found.key then
      { found with counts := value } else s).map (·.key) = shards.map (·.key) := by
    rw [List.map_map]
    refine List.map_congr_left fun s _ => ?_
    by_cases hs : s.key = found.key <;> simp [hs]
  have hnd := hkeys ▸ h
  unfold storedCounts
  by_cases hk : key = found.key
  · have : findShard (shards.map fun s => if s.key = found.key then
        { found with counts := value } else s) key = some { found with counts := value } :=
      (findShard_eq_some hnd).mpr ⟨List.mem_map.mpr ⟨found, hf, by simp⟩, hk.symm⟩
    rw [this, if_pos hk]
    rfl
  · rw [if_neg hk]
    cases hold : findShard shards key with
    | none =>
      rw [findShard_eq_none] at hold
      have : findShard (shards.map fun s => if s.key = found.key then
          { found with counts := value } else s) key = none := by
        rw [findShard_eq_none]
        intro s hs
        obtain ⟨s', hs', rfl⟩ := List.mem_map.mp hs
        split
        · exact fun hc => hk hc.symm
        · exact hold s' hs'
      rw [this]
    | some s =>
      obtain ⟨hs, hsk⟩ := (findShard_eq_some h).mp hold
      have hne : s.key ≠ found.key := fun hc => hk (hsk ▸ hc)
      have : findShard (shards.map fun s => if s.key = found.key then
          { found with counts := value } else s) key = some s :=
        (findShard_eq_some hnd).mpr ⟨List.mem_map.mpr ⟨s, hs, by simp [hne]⟩, hsk⟩
      rw [this]

/-! ## One adjustment -/

/-- An adjustment that leaves no negative count succeeds, and adds its delta at its key. -/
theorem adjust_represents (h : Represents shards counts) {change : ShardKey × StateCounts}
    (hkey : ValidKey queues change.1) (hpos : 0 ≤ counts change.1 + change.2) :
    ∃ shards', adjustQueuePriorityState queues shards change = .ok shards' ∧
      Represents shards' fun key => counts key + if key = change.1 then change.2 else 0 := by
  have hstored := h.stored change.1
  unfold storedCounts at hstored
  unfold adjustQueuePriorityState
  cases hf : findShard shards change.1 with
  | some found =>
    obtain ⟨hmem, hfk⟩ := (findShard_eq_some h.keys).mp hf
    rw [hf, Option.map_some, Option.getD_some] at hstored
    have hfound := QueuePriorityStateShard.checked_iff.mp (h.checked found hmem)
    have hnew : Checked queuePriorityStateShardChecks
        { found with counts := found.counts + change.2 } := by
      rw [QueuePriorityStateShard.checked_iff]
      rw [← hstored] at hpos
      exact ⟨hfound.1, hfound.2.1, hpos.1, hpos.2⟩
    refine ⟨_, guard_eq_ok.mpr ⟨checkRow_eq_ok.mpr hnew, rfl⟩, ?_, ?_, ?_⟩
    · have : (shards.map fun s => if s.key = change.1 then
          { found with counts := found.counts + change.2 } else s).map (·.key) =
          shards.map (·.key) := by
        rw [List.map_map]
        refine List.map_congr_left fun s _ => ?_
        by_cases hs : s.key = change.1 <;> simp [hs, hfk]
      rw [this]
      exact h.keys
    · intro s hs
      obtain ⟨s', hs', rfl⟩ := List.mem_map.mp hs
      split
      · exact hnew
      · exact h.checked s' hs'
    · intro key
      rw [← hfk, storedCounts_map h.keys hmem, h.stored key]
      split
      · rename_i hk
        rw [hk, hstored, hfk]
      · rw [add_zero]
  | none =>
    rw [hf, Option.map_none, Option.getD_none] at hstored
    rw [← hstored, zero_add] at hpos
    have hdelta : ¬(change.2.1 < 0 ∨ change.2.2 < 0) := by
      have h1 : 0 ≤ change.2.1 := hpos.1
      have h2 : 0 ≤ change.2.2 := hpos.2
      omega
    have hnew : Checked queuePriorityStateShardChecks
        { key := change.1, counts := change.2 } := by
      rw [QueuePriorityStateShard.checked_iff]
      exact ⟨hkey.priority, hkey.shard, hpos.1, hpos.2⟩
    have habsent := findShard_eq_none.mp hf
    refine ⟨shards ++ [{ key := change.1, counts := change.2 }], ?_, ?_, ?_, ?_⟩
    · simp only [guard_eq_ok, pure_eq_ok, require_eq_ok, queueExists_iff]
      exact ⟨hdelta, checkRow_eq_ok.mpr hnew, hkey.queue, trivial⟩
    · rw [List.map_append, List.map_singleton, List.nodup_append]
      refine ⟨h.keys, List.nodup_singleton _, fun k hk k' hk' => ?_⟩
      obtain ⟨s, hs, rfl⟩ := List.mem_map.mp hk
      rw [List.mem_singleton.mp hk']
      exact habsent s hs
    · intro s hs
      rcases List.mem_append.mp hs with hs | hs
      · exact h.checked s hs
      · rw [List.mem_singleton.mp hs]
        exact hnew
    · intro key
      rw [← h.stored key]
      unfold storedCounts findShard
      rw [List.find?_append]
      by_cases hk : key = change.1
      · unfold findShard at hf
        rw [hk, hf]
        simp
      · have : ¬change.1 = key := fun hc => hk hc.symm
        simp [hk, this]

/-- A list of adjustments with different keys adds its totals. -/
theorem adjustAll_represents (queues : List QueueRow) {changes : List (ShardKey × StateCounts)} :
    ∀ {shards : List QueuePriorityStateShard} {counts : ShardKey → StateCounts},
    Represents shards counts → (changes.map Prod.fst).Nodup →
    (∀ e ∈ changes, ValidKey queues e.1 ∧ 0 ≤ counts e.1 + e.2) →
    ∃ shards', changes.foldlM (adjustQueuePriorityState queues) shards = .ok shards' ∧
      Represents shards' fun key => counts key + totalAt changes key := by
  induction changes with
  | nil => intro shards counts h _ _; exact ⟨shards, rfl, by simpa using h⟩
  | cons e changes ih =>
    intro shards counts h hnd hall
    rw [List.map_cons, List.nodup_cons] at hnd
    obtain ⟨hkey, hpos⟩ := hall e List.mem_cons_self
    obtain ⟨mid, hadj, hmid⟩ := adjust_represents h hkey hpos
    -- the later keys are different, so their counts are still the old ones
    have hrest : ∀ e' ∈ changes, ValidKey queues e'.1 ∧
        0 ≤ counts e'.1 + (if e'.1 = e.1 then e.2 else 0) + e'.2 := by
      intro e' he'
      have hne : e'.1 ≠ e.1 := fun hc => hnd.1 (hc ▸ List.mem_map_of_mem he')
      rw [if_neg hne, add_zero]
      exact hall e' (List.mem_cons_of_mem e he')
    obtain ⟨shards', hfold, hrep⟩ := ih hmid hnd.2 hrest
    refine ⟨shards', ?_, hrep.keys, hrep.checked, fun key => ?_⟩
    · rw [List.foldlM_cons, bind_eq_ok]
      exact ⟨mid, hadj, hfold⟩
    · rw [hrep.stored, totalAt_cons, add_assoc]
      simp only [eq_comm]

/-! ## Counts of a message table -/

/-- The READY and the IN_FLIGHT messages of a counter row. -/
def tableCounts (messages : List QueueMessage) (key : ShardKey) : StateCounts :=
  (messages.countP fun m => m.shardKey = key ∧ m.state = .ready,
    messages.countP fun m => m.shardKey = key ∧ m.state = .inFlight)

theorem stateCounts_filter (messages : List QueueMessage) (key : ShardKey) :
    stateCounts (messages.filter fun m => m.shardKey = key) = tableCounts messages key := by
  simp [stateCounts, tableCounts, List.countP_filter, and_comm]

@[simp] theorem tableCounts_nil (key : ShardKey) : tableCounts [] key = 0 := rfl

theorem tableCounts_nonneg (messages : List QueueMessage) (key : ShardKey) :
    0 ≤ tableCounts messages key :=
  ⟨Int.natCast_nonneg _, Int.natCast_nonneg _⟩

theorem totalAt_groupedCounts (messages : List QueueMessage) (key : ShardKey) :
    totalAt (groupedCounts messages) key = tableCounts messages key := by
  rw [groupedCounts, totalAt_aggregate rfl, stateCounts_filter]

theorem totalAt_groupedNegatedCounts (messages : List QueueMessage) (key : ShardKey) :
    totalAt (groupedNegatedCounts messages) key = -tableCounts messages key := by
  rw [groupedNegatedCounts, totalAt_aggregate rfl, stateCounts_filter]

/-- The columns that the UPDATE branch compares, and the identifier. -/
def QueueMessage.countedColumns (m : QueueMessage) : Uuid × Uuid × Int × MessageState :=
  (m.id, m.queueId, m.priority, m.state)

/-- Without a state change every old row has a new row with the same counted columns. -/
theorem countedColumns_subset {old new : List QueueMessage} (h : exitsEarly old new) {o : QueueMessage}
    (ho : o ∈ old) : ∃ n ∈ new, n.countedColumns = o.countedColumns := by
  simp only [exitsEarly, Bool.not_eq_true', List.any_eq_false] at h
  cases hm : new.filter fun n => n.id = o.id with
  | nil =>
    refine absurd ?_ (h (some o, none) ?_)
    · rfl
    · refine List.mem_append_left _ (List.mem_flatMap.mpr ⟨o, ho, ?_⟩)
      simp [hm]
  | cons n ns =>
    have hn : n ∈ new.filter fun n => n.id = o.id := hm ▸ List.mem_cons_self
    obtain ⟨hnew, hid⟩ := List.mem_filter.mp hn
    have hpair : (some o, some n) ∈ fullJoin old new := by
      refine List.mem_append_left _ (List.mem_flatMap.mpr ⟨o, ho, ?_⟩)
      simp [hm]
    have hsame := h _ hpair
    simp only [isStateChange, ne_eq, decide_eq_true_eq, not_or, not_not] at hsame
    refine ⟨n, hnew, ?_⟩
    simp only [QueueMessage.countedColumns, Prod.mk.injEq]
    exact ⟨by simpa using hid, hsame.1.symm, hsame.2.1.symm, hsame.2.2.symm⟩

/-- Without a state change every new row has an old row with its identifier. -/
theorem id_mem_of_exitsEarly {old new : List QueueMessage} (h : exitsEarly old new)
    {n : QueueMessage} (hn : n ∈ new) : ∃ o ∈ old, o.id = n.id := by
  simp only [exitsEarly, Bool.not_eq_true', List.any_eq_false] at h
  by_contra hnone
  refine absurd ?_ (h (none, some n) ?_)
  · rfl
  · refine List.mem_append_right _ (List.mem_map.mpr ⟨n, List.mem_filter.mpr ⟨hn, ?_⟩, rfl⟩)
    simp only [Bool.not_eq_true', List.any_eq_false, decide_eq_true_eq]
    exact fun o ho hid => hnone ⟨o, ho, hid.symm⟩

/-- **The early exit is sound**: when the full join shows no change in a counted column, the
    old and the new rows count the same everywhere. -/
theorem tableCounts_of_exitsEarly {old new : List QueueMessage} (h : exitsEarly old new)
    (hold : (old.map (·.id)).Nodup) (hnew : (new.map (·.id)).Nodup) (key : ShardKey) :
    tableCounts old key = tableCounts new key := by
  have hnodup : ∀ ms : List QueueMessage, (ms.map (·.id)).Nodup →
      (ms.map QueueMessage.countedColumns).Nodup := by
    intro ms hms
    refine List.Nodup.of_map Prod.fst ?_
    simpa [Function.comp_def, QueueMessage.countedColumns] using hms
  have hperm : (old.map QueueMessage.countedColumns).Perm (new.map QueueMessage.countedColumns) := by
    rw [List.perm_ext_iff_of_nodup (hnodup old hold) (hnodup new hnew)]
    intro c
    constructor
    · intro hc
      obtain ⟨o, ho, rfl⟩ := List.mem_map.mp hc
      obtain ⟨n, hn, heq⟩ := countedColumns_subset h ho
      exact List.mem_map.mpr ⟨n, hn, heq⟩
    · intro hc
      obtain ⟨n, hn, rfl⟩ := List.mem_map.mp hc
      obtain ⟨o, ho, hid⟩ := id_mem_of_exitsEarly h hn
      obtain ⟨n', hn', heq⟩ := countedColumns_subset h ho
      have hnn : n' = n := by
        refine eq_of_key_eq hnew hn' hn ?_
        have : n'.id = o.id := congrArg Prod.fst heq
        exact this.trans hid
      exact List.mem_map.mpr ⟨o, ho, by rw [← heq, hnn]⟩
  -- both counts are counts of these columns
  have hcount : ∀ (ms : List QueueMessage) (state : MessageState),
      ms.countP (fun m => m.shardKey = key ∧ m.state = state) =
        (ms.map QueueMessage.countedColumns).countP fun c =>
          (⟨c.2.1, c.2.2.1, queueMessageStateShard c.1⟩ : ShardKey) = key ∧ c.2.2.2 = state := by
    intro ms state
    rw [List.countP_map]
    rfl
  simp only [tableCounts, hcount, hperm.countP_eq]

/-! ## The triggers of one statement -/

namespace Statement

variable (s : Statement) (messages : List QueueMessage) (key : ShardKey)

/-- What the trigger of an event adds at a key. -/
def delta : TriggerEvent → StateCounts
  | .insert => tableCounts s.inserted key
  | .update => tableCounts ((updatedRows s.change messages).map Prod.snd) key -
      tableCounts ((updatedRows s.change messages).map Prod.fst) key
  | .delete => -tableCounts (deletedRows s.change messages) key

/-- The deltas of the three events together are the change of the table's counts. -/
theorem tableCounts_apply : tableCounts (s.apply messages) key =
    tableCounts messages key +
      (s.delta messages key .insert + s.delta messages key .update + s.delta messages key .delete) := by
  have hr := countP_applyChanges s.change
    (fun m => m.shardKey = key ∧ m.state = .ready) messages
  have hi := countP_applyChanges s.change
    (fun m => m.shardKey = key ∧ m.state = .inFlight) messages
  simp only [delta, apply, tableCounts, List.countP_append, Prod.mk_add_mk, Prod.neg_mk,
    Prod.mk_sub_mk, Prod.mk.injEq]
  omega

theorem sum_map_event (f : TriggerEvent → StateCounts) {done : List TriggerEvent}
    (h : done.Nodup) : (done.map f).sum =
      (if .insert ∈ done then f .insert else 0) + (if .update ∈ done then f .update else 0) +
        (if .delete ∈ done then f .delete else 0) := by
  induction done with
  | nil => simp
  | cons e done ih =>
    rw [List.nodup_cons] at h
    rw [List.map_cons, List.sum_cons, ih h.2]
    cases e <;> simp [h.1, add_comm, add_left_comm]

/-- Whatever triggers have fired so far, no count is negative. -/
theorem counts_nonneg {done : List TriggerEvent} (h : done.Nodup) :
    0 ≤ tableCounts messages key + (done.map (s.delta messages key)).sum := by
  have hr := countP_touched_le s.change
    (fun m => m.shardKey = key ∧ m.state = .ready) messages
  have hi := countP_touched_le s.change
    (fun m => m.shardKey = key ∧ m.state = .inFlight) messages
  rw [sum_map_event _ h]
  simp only [delta, tableCounts]
  split_ifs <;>
    exact ⟨by simp only [Prod.fst_add, Prod.fst_sub, Prod.fst_neg, Prod.fst_zero]; omega,
      by simp only [Prod.snd_add, Prod.snd_sub, Prod.snd_neg, Prod.snd_zero]; omega⟩

end Statement

/-- The constraints of `queue_message`, as they hold of a whole table. -/
structure MessagesValid (queues : List QueueRow) (messages : List QueueMessage) : Prop where
  ids : (messages.map (·.id)).Nodup
  orders : (messages.map (·.enqueueOrder)).Nodup
  checked : ∀ m ∈ messages, Checked queueMessageChecks m
  queue : ∀ m ∈ messages, ∃ q ∈ queues, q.id = m.queueId

theorem MessagesValid.validKey {messages : List QueueMessage} (h : MessagesValid queues messages)
    {m : QueueMessage} (hm : m ∈ messages) : ValidKey queues m.shardKey :=
  ⟨(QueueMessage.checked_iff.mp (h.checked m hm)).1, queueMessageStateShard_range m.id,
    h.queue m hm⟩

namespace Statement

variable {s : Statement} {db : Database}

/-- A statement that passes its checks leaves a valid table. -/
theorem messagesValid_apply (h : MessagesValid db.queue db.queueMessage)
    (hcheck : s.check db = .ok ()) : MessagesValid db.queue (s.apply db.queueMessage) := by
  obtain ⟨hchecked, hids, horders, hqueue⟩ := check_eq_ok.mp hcheck
  -- a row that is there afterwards was there before or has been written
  have hrow : ∀ m ∈ s.apply db.queueMessage,
      m ∈ db.queueMessage ∨ m ∈ s.written db.queueMessage := by
    intro m hm
    rcases List.mem_append.mp hm with hm | hm
    · obtain ⟨a, ha, hres⟩ := mem_applyChanges.mp hm
      cases hch : s.change a with
      | keep => simp [hch] at hres; exact Or.inl (hres ▸ ha)
      | delete => simp [hch] at hres
      | update b =>
        simp [hch] at hres
        refine Or.inr (List.mem_append_left _ (List.mem_map.mpr ⟨(a, b), ?_, hres⟩))
        exact mem_updatedRows.mpr ⟨ha, hch⟩
    · exact Or.inr (List.mem_append_right _ hm)
  refine ⟨hids, horders, fun m hm => ?_, fun m hm => ?_⟩
  · rcases hrow m hm with hm | hm
    · exact h.checked m hm
    · exact hchecked m hm
  · rcases hrow m hm with hm | hm
    · exact h.queue m hm
    · exact hqueue m hm

/-- The rows a trigger adjusts are rows of messages that exist before or after. -/
theorem changes_mem {event : TriggerEvent} {e : ShardKey × StateCounts}
    (he : e ∈ (s.transitionTables db.queueMessage event).changes) :
    ∃ m, (m ∈ db.queueMessage ∨ m ∈ s.apply db.queueMessage) ∧ m.shardKey = e.1 := by
  have hgrouped : ∀ {f : List QueueMessage → StateCounts} {ms : List QueueMessage}
      {e : ShardKey × StateCounts}, e ∈ aggregate QueueMessage.shardKey f ms →
      ∃ m ∈ ms, m.shardKey = e.1 :=
    fun h => (mem_aggregate.mp h).1
  cases event with
  | insert =>
    have he : e ∈ groupedCounts s.inserted := he
    obtain ⟨m, hm, hk⟩ := hgrouped he
    exact ⟨m, Or.inr (List.mem_append_right _ hm), hk⟩
  | delete =>
    have he : e ∈ groupedNegatedCounts (deletedRows s.change db.queueMessage) := he
    obtain ⟨m, hm, hk⟩ := hgrouped he
    exact ⟨m, Or.inl (mem_deletedRows.mp hm).1, hk⟩
  | update =>
    simp only [transitionTables, TransitionTables.changes] at he
    split at he
    · simp at he
    · obtain ⟨⟨e', he', hk'⟩, -⟩ := mem_aggregate.mp (List.mem_filter.mp he).1
      rcases List.mem_append.mp he' with he' | he'
      · obtain ⟨m, hm, hk⟩ := hgrouped he'
        exact ⟨m, Or.inl ((old_sublist _ _).subset hm), hk.trans hk'⟩
      · obtain ⟨m, hm, hk⟩ := hgrouped he'
        exact ⟨m, Or.inr (List.mem_append_left _ (mem_applyChanges_of_updated hm)), hk.trans hk'⟩

/-- The identifiers of the old and of the new versions of the updated rows are different. -/
theorem updated_ids_nodup (h : MessagesValid db.queue db.queueMessage)
    (hcheck : s.check db = .ok ()) :
    (((updatedRows s.change db.queueMessage).map Prod.fst).map (·.id)).Nodup ∧
      (((updatedRows s.change db.queueMessage).map Prod.snd).map (·.id)).Nodup := by
  obtain ⟨-, hids, -, -⟩ := check_eq_ok.mp hcheck
  refine ⟨((old_sublist _ _).map _).nodup h.ids, ?_⟩
  refine (((new_sublist s.change db.queueMessage).trans ?_).map _).nodup hids
  exact List.sublist_append_left _ _

/-- The entries of a trigger total to the delta of its event, also when it exits early. -/
theorem totalAt_changes (h : MessagesValid db.queue db.queueMessage)
    (hcheck : s.check db = .ok ()) (event : TriggerEvent) (key : ShardKey) :
    totalAt (s.transitionTables db.queueMessage event).changes key =
      s.delta db.queueMessage key event := by
  cases event with
  | insert => exact totalAt_groupedCounts _ _
  | delete => exact totalAt_groupedNegatedCounts _ _
  | update =>
    simp only [transitionTables, TransitionTables.changes, delta]
    split
    · rename_i hexit
      obtain ⟨hold, hnew⟩ := updated_ids_nodup h hcheck
      rw [tableCounts_of_exitsEarly hexit hold hnew, sub_self, totalAt_nil]
    · rw [totalAt_netTotals, totalAt_append, totalAt_groupedCounts, totalAt_groupedNegatedCounts,
        neg_add_eq_sub]

/-- The entries of a trigger come in strictly ascending order of their keys. -/
theorem changes_sorted (tables : TransitionTables) :
    (tables.changes.map Prod.fst).Pairwise (· < ·) := by
  cases tables with
  | insert ms => exact aggregate_sorted QueueMessage.shardKey stateCounts ms
  | delete ms => exact aggregate_sorted QueueMessage.shardKey (fun ms => -stateCounts ms) ms
  | update old new =>
    simp only [TransitionTables.changes]
    split
    · exact List.Pairwise.nil
    · exact netTotals_sorted _

/-- A trigger that does not fire had nothing to add. -/
theorem delta_of_notMem_fires {event : TriggerEvent} (h : event ∉ s.fires)
    (messages : List QueueMessage) (key : ShardKey) : s.delta messages key event = 0 := by
  cases event with
  | insert =>
    have hnone : s.inserted = [] := by
      by_contra hne
      exact h (s.fires_insert hne)
    simp [delta, hnone]
  | update =>
    have hnone : updatedRows s.change messages = [] :=
      List.eq_nil_iff_forall_not_mem.mpr fun _ hab => h (s.fires_update _ _ (mem_updatedRows.mp hab).2)
    simp [delta, hnone]
  | delete =>
    have hnone : deletedRows s.change messages = [] :=
      List.eq_nil_iff_forall_not_mem.mpr fun _ ha => h (s.fires_delete _ (mem_deletedRows.mp ha).2)
    simp [delta, hnone]

/-- **The triggers of a statement**: on a rollup that counts the table before it they succeed,
    in whatever order they fire, and leave a rollup that counts the table after it. -/
theorem fire_represents (h : MessagesValid db.queue db.queueMessage)
    (hrep : Represents db.queuePriorityStateShard (tableCounts db.queueMessage))
    (hcheck : s.check db = .ok ()) :
    ∃ shards, s.fire db = .ok shards ∧
      Represents shards (tableCounts (s.apply db.queueMessage)) := by
  have hafter := messagesValid_apply h hcheck
  -- induction on the triggers still to fire
  have hfold : ∀ (rest done : List TriggerEvent) (shards : List QueuePriorityStateShard),
      (done ++ rest).Nodup →
      Represents shards (fun key => tableCounts db.queueMessage key +
        (done.map (s.delta db.queueMessage key)).sum) →
      ∃ shards', rest.foldlM (fun shards event => maintainQueuePriorityState db.queue shards
          (s.transitionTables db.queueMessage event)) shards = .ok shards' ∧
        Represents shards' (fun key => tableCounts db.queueMessage key +
          ((done ++ rest).map (s.delta db.queueMessage key)).sum) := by
    intro rest
    induction rest with
    | nil => intro done shards _ hr; exact ⟨shards, rfl, by simpa using hr⟩
    | cons event rest ih =>
      intro done shards hnd hr
      have hsplit : done ++ event :: rest = (done ++ [event]) ++ rest := by simp
      rw [hsplit] at hnd ⊢
      have hkeys : ((s.transitionTables db.queueMessage event).changes.map Prod.fst).Nodup :=
        (changes_sorted _).imp ne_of_lt
      obtain ⟨mid, hmid, hrmid⟩ := adjustAll_represents db.queue hr hkeys (by
        intro e he
        obtain ⟨m, hm, hk⟩ := changes_mem he
        refine ⟨hk ▸ hm.elim h.validKey hafter.validKey, ?_⟩
        have hpos := s.counts_nonneg db.queueMessage e.1 (hnd.sublist (List.sublist_append_left _ _))
        rw [List.map_append, List.sum_append, List.map_singleton, List.sum_singleton,
          ← totalAt_changes h hcheck, totalAt_of_mem hkeys he] at hpos
        rwa [← add_assoc] at hpos)
      simp only [totalAt_changes h hcheck] at hrmid
      obtain ⟨shards', hrest, hr'⟩ := ih (done ++ [event]) mid hnd (by
        simpa [add_assoc] using hrmid)
      refine ⟨shards', ?_, hr'⟩
      rw [List.foldlM_cons, bind_eq_ok]
      exact ⟨mid, hmid, hrest⟩
  obtain ⟨shards, hfire, hr⟩ := hfold s.fires [] _ (by simpa using s.fires_once) (by simpa using hrep)
  refine ⟨shards, hfire, hr.keys, hr.checked, fun key => ?_⟩
  rw [hr.stored, List.nil_append, sum_map_event _ s.fires_once, tableCounts_apply]
  have hfires : ∀ event, (if event ∈ s.fires then s.delta db.queueMessage key event else 0) =
      s.delta db.queueMessage key event := by
    intro event
    split
    · rfl
    · rename_i hno
      exact (delta_of_notMem_fires hno _ _).symm
  simp only [hfires]

end Statement

/-! ## Runs of statements -/

/-- The message table is valid and the rollup counts it. -/
structure Database.RollupValid (db : Database) : Prop where
  messages : MessagesValid db.queue db.queueMessage
  rollup : Represents db.queuePriorityStateShard (tableCounts db.queueMessage)

/-- The migration fills the rollup from the messages that exist. -/
def Database.migrateRollup (db : Database) : Database :=
  { db with queuePriorityStateShard := backfill db.queueMessage }

/-- A statement that is rejected leaves the database as it was. -/
def Database.runStatement (db : Database) (s : Statement) : Database :=
  match s.exec db with
  | .ok db' => db'
  | .error _ => db

def Database.runStatements (db : Database) (statements : List Statement) : Database :=
  statements.foldl Database.runStatement db

/-- The backfill counts the table it reads. -/
theorem migrateRollup_valid {db : Database} (h : MessagesValid db.queue db.queueMessage) :
    db.migrateRollup.RollupValid := by
  have hkeys : ((groupedCounts db.queueMessage).map Prod.fst).Nodup :=
    (Statement.changes_sorted (.insert db.queueMessage)).imp ne_of_lt
  have hbackfill : (backfill db.queueMessage).map (·.key) =
      (groupedCounts db.queueMessage).map Prod.fst := by
    rw [backfill, List.map_map]
    rfl
  refine ⟨h, hbackfill ▸ hkeys, fun s hs => ?_, fun key => ?_⟩
  · obtain ⟨e, he, rfl⟩ := List.mem_map.mp hs
    obtain ⟨⟨m, hm, hk⟩, hv⟩ := mem_aggregate.mp he
    have hvalid := h.validKey hm
    rw [hk] at hvalid
    rw [QueuePriorityStateShard.checked_iff]
    refine ⟨hvalid.priority, hvalid.shard, ?_⟩
    rw [hv, stateCounts_filter]
    exact tableCounts_nonneg db.queueMessage e.1
  · show storedCounts (backfill db.queueMessage) key = tableCounts db.queueMessage key
    rw [← totalAt_groupedCounts]
    unfold storedCounts
    cases hf : findShard (backfill db.queueMessage) key with
    | none =>
      rw [findShard_eq_none] at hf
      refine (totalAt_of_notMem fun hmem => ?_).symm
      rw [← hbackfill] at hmem
      obtain ⟨s, hs, hsk⟩ := List.mem_map.mp hmem
      exact hf s hs hsk
    | some s =>
      obtain ⟨hs, rfl⟩ := (findShard_eq_some (hbackfill ▸ hkeys)).mp hf
      obtain ⟨e, he, rfl⟩ := List.mem_map.mp hs
      exact (totalAt_of_mem hkeys he).symm

/-- A statement on a valid database either is rejected by a constraint of `queue_message` or
    succeeds, triggers included. -/
theorem Statement.exec_cases {db : Database} (h : db.RollupValid) (s : Statement) :
    (∃ e, s.check db = .error e ∧ s.exec db = .error e) ∨
      (s.check db = .ok () ∧ ∃ shards, s.fire db = .ok shards ∧
        s.exec db = .ok { db with
          queueMessage := s.apply db.queueMessage
          queuePriorityStateShard := shards } ∧
        Represents shards (tableCounts (s.apply db.queueMessage))) := by
  cases hc : s.check db with
  | error e => exact Or.inl ⟨e, rfl, by simp [exec, hc, bind, Except.bind]⟩
  | ok u =>
    obtain ⟨shards, hfire, hrep⟩ := fire_represents h.messages h.rollup hc
    have hexec : s.exec db = .ok { db with
        queueMessage := s.apply db.queueMessage, queuePriorityStateShard := shards } := by
      simp [exec, hc, hfire, bind, Except.bind, pure, Except.pure]
    exact Or.inr ⟨rfl, shards, hfire, hexec, hrep⟩

/-- A statement that succeeds keeps the rollup. -/
theorem Statement.exec_valid {db db' : Database} (h : db.RollupValid) {s : Statement}
    (hexec : s.exec db = .ok db') :
    db'.RollupValid ∧ s.check db = .ok () ∧ ∃ shards, db' = { db with
      queueMessage := s.apply db.queueMessage
      queuePriorityStateShard := shards } := by
  rcases s.exec_cases h with ⟨e, -, he⟩ | ⟨hcheck, shards, -, hok, hrep⟩
  · rw [he] at hexec
    simp at hexec
  · rw [hok] at hexec
    injection hexec with hexec
    subst hexec
    exact ⟨⟨messagesValid_apply h.messages hcheck, hrep⟩, hcheck, shards, rfl⟩

theorem runStatement_valid {db : Database} (h : db.RollupValid) (s : Statement) :
    (db.runStatement s).RollupValid := by
  unfold Database.runStatement
  cases hexec : s.exec db with
  | error e => exact h
  | ok db' => exact (Statement.exec_valid h hexec).1

/-- The invariant of whole runs. -/
theorem runStatements_valid {db : Database} (h : db.RollupValid) (statements : List Statement) :
    (db.runStatements statements).RollupValid := by
  induction statements generalizing db with
  | nil => exact h
  | cons s statements ih => exact ih (runStatement_valid h s)

/-- **The rollup is exact.**  From the backfill of any valid message table, after any sequence
    of statements on `queue_message`: every counter row (absent = zero) holds the number of
    READY and of IN_FLIGHT messages of its queue, priority and shard; no acceptable statement
    is rejected by its triggers, neither by their exception nor by a check on the counts; and
    the UPDATE trigger exits early only when the statement changes no count at all. -/
theorem rollup_exact (db : Database) (h : MessagesValid db.queue db.queueMessage)
    (statements : List Statement) :
    let db' := db.migrateRollup.runStatements statements
    (∀ queueId priority shard,
      (storedCounts db'.queuePriorityStateShard ⟨queueId, priority, shard⟩).1 =
          db'.queueMessage.countP (fun m => m.state = .ready ∧ m.queueId = queueId ∧
            m.priority = priority ∧ queueMessageStateShard m.id = shard) ∧
        (storedCounts db'.queuePriorityStateShard ⟨queueId, priority, shard⟩).2 =
          db'.queueMessage.countP (fun m => m.state = .inFlight ∧ m.queueId = queueId ∧
            m.priority = priority ∧ queueMessageStateShard m.id = shard)) ∧
    (∀ s : Statement, s.check db' = .ok () → ∃ shards, s.fire db' = .ok shards) ∧
    (∀ (s : Statement) (text : String), s.exec db' ≠ .error (.raised text)) ∧
    ∀ s : Statement, s.check db' = .ok () →
      exitsEarly ((updatedRows s.change db'.queueMessage).map Prod.fst)
        ((updatedRows s.change db'.queueMessage).map Prod.snd) →
      ∀ key, totalAt (groupedNegatedCounts ((updatedRows s.change db'.queueMessage).map Prod.fst) ++
        groupedCounts ((updatedRows s.change db'.queueMessage).map Prod.snd)) key = 0 := by
  intro db'
  have hvalid : db'.RollupValid := runStatements_valid (migrateRollup_valid h) statements
  refine ⟨fun queueId priority shard => ?_, fun s hcheck => ?_, fun s text hexec => ?_,
    fun s hcheck hexit key => ?_⟩
  · rw [hvalid.rollup.stored]
    simp [tableCounts, QueueMessage.shardKey, and_comm]
  · obtain ⟨shards, hfire, -⟩ := Statement.fire_represents hvalid.messages hvalid.rollup hcheck
    exact ⟨shards, hfire⟩
  · rcases s.exec_cases hvalid with ⟨e, he, he'⟩ | ⟨-, shards, -, hok, -⟩
    · rw [hexec] at he'
      injection he' with he'
      exact Statement.check_ne_raised (he'.symm ▸ he)
    · rw [hexec] at hok
      simp at hok
  · obtain ⟨hold, hnew⟩ := Statement.updated_ids_nodup hvalid.messages hcheck
    rw [totalAt_append, totalAt_groupedNegatedCounts, totalAt_groupedCounts,
      tableCounts_of_exitsEarly hexit hold hnew, neg_add_cancel]

/-- A queue with one message of each state. -/
def twoMessages : Database where
  queue := [⟨1, "orders", 30, 5, 604800, 0, 0⟩]
  queueMessage := [
    ⟨7, 1, 1, ⟨#[]⟩, 2, .ready, 0, seconds 60, 0, none, 0, none⟩,
    ⟨39, 1, 2, ⟨#[]⟩, 2, .inFlight, 0, seconds 60, 1, some 9, seconds 30, some 0⟩]
  queueDeadLetterMessage := []
  queuePriorityStateShard := []
  enqueueOrderSequence := 3

/-- Deletes message 39 and moves message 7 to another identifier, hence to another shard. -/
def deleteAndMove : Statement where
  inserted := []
  change m := if m.id = 39 then .delete else if m.id = 7 then .update { m with id := 8 } else .keep
  fires := [.update, .delete]
  fires_once := by decide
  fires_insert h := by simp at h
  fires_update _ _ _ := by decide
  fires_delete _ _ := by decide

/-- On two messages that share a counter row: one statement empties it and fills another. -/
theorem rollup_exact_deleteAndMove :
    let stored := twoMessages.migrateRollup.queuePriorityStateShard
    let stored' := (twoMessages.migrateRollup.runStatements [deleteAndMove]).queuePriorityStateShard
    storedCounts stored ⟨1, 2, 7⟩ = (1, 1) ∧
      (storedCounts stored' ⟨1, 2, 7⟩).1 = 0 ∧ (storedCounts stored' ⟨1, 2, 7⟩).2 = 0 ∧
      (storedCounts stored' ⟨1, 2, 8⟩).1 = 1 := by
  have hvalid : MessagesValid twoMessages.queue twoMessages.queueMessage :=
    ⟨by decide, by decide, by decide, by decide⟩
  obtain ⟨hcounts, -⟩ := rollup_exact twoMessages hvalid [deleteAndMove]
  refine ⟨by decide +kernel, (hcounts 1 2 7).1.trans ?_, (hcounts 1 2 7).2.trans ?_,
    (hcounts 1 2 8).1.trans ?_⟩
  all_goals decide +kernel

end Retsu
