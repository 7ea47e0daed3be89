/-
  The operations on the queue table alone: create, update and the two reads.

  What they do to the table is what they do to `Database.details`, the map from queue ids to the
  details of the queues: `MetadataEffect` says it once, and the repositories in front of
  PostgreSQL are compared with it.
-/
import Retsu.Effect
import Retsu.Validation

namespace Retsu

open Relational

/-! ## Operations -/

/-- `PostgresQueueRepository::queue_name`. -/
def queueName (db : Database) (queueId : Uuid) : Option String :=
  (db.queue.find? fun q => q.id = queueId).map (·.name)

/-- `PostgresQueueRepository::queue_details`. -/
def queueDetails (db : Database) (queueId : Uuid) : Except RepositoryError (Option QueueDetails) :=
  (db.queue.find? fun q => q.id = queueId).mapM queueDetailsFromRow

deriving instance DecidableEq for QueueName, QueueSettings, Queue

/-- An update is its three settings. -/
theorem QueueConfigurationUpdate.eq_iff {a b : QueueConfigurationUpdate} :
    (a.visibilityTimeoutSeconds = b.visibilityTimeoutSeconds ∧
      a.maxDeliveryAttempts = b.maxDeliveryAttempts ∧
      a.defaultMessageTtlSeconds = b.defaultMessageTtlSeconds) ↔ a = b := by
  obtain ⟨_, _, _, _, _, _⟩ := a
  obtain ⟨_, _, _, _, _, _⟩ := b
  simp

instance : DecidableEq QueueConfigurationUpdate :=
  fun _ _ => decidable_of_iff _ QueueConfigurationUpdate.eq_iff

inductive MetadataOp
  | createQueue (queue : Queue)
  | queueName (queueId : Uuid)
  | queueDetails (queueId : Uuid)
  | updateQueue (queueId : Uuid) (configuration : QueueConfigurationUpdate)
deriving DecidableEq

def MetadataOp.queueId : MetadataOp → Uuid
  | createQueue queue => queue.id
  | queueName queueId | queueDetails queueId | updateQueue queueId _ => queueId

inductive MetadataError
  /-- No connection, or a statement that was not executed. -/
  | unavailable
  | repository (error : RepositoryError)
  /-- `failed to load queue name: …`. -/
  | loadQueueName (error : MetadataError)
deriving DecidableEq, Repr

inductive MetadataResponse
  | createQueue (outcome : CreateQueueOutcome)
  | queueName (name : Option String)
  | queueDetails (details : Option QueueDetails)
  | updateQueue (details : Option QueueDetails)
  | failed (error : MetadataError)
deriving DecidableEq, Repr

/-- The response of an operation on the queue table; the other operations have none. -/
def Response.metadata : Response → MetadataResponse
  | .createQueue outcome => .createQueue outcome
  | .updateQueue details => .updateQueue details
  | .failed error => .failed (.repository error)
  | _ => .failed .unavailable

/-- The call on `PostgresQueueRepository`, with a working database. -/
def MetadataOp.run (db : Database) (now : Int) : MetadataOp → Database × MetadataResponse
  | createQueue queue =>
    let (db', response) := Retsu.createQueue db now queue
    (db', response.metadata)
  | queueName queueId => (db, .queueName (Retsu.queueName db queueId))
  | queueDetails queueId =>
    match Retsu.queueDetails db queueId with
    | .ok details => (db, .queueDetails details)
    | .error e => (db, .failed (.repository e))
  | updateQueue queueId configuration =>
    let (db', response) := Retsu.updateQueue db now queueId configuration
    (db', response.metadata)

/-! ## The table as a map -/

/-- The details of the queue, if there is one. -/
def Database.details (db : Database) (queueId : Uuid) : Option QueueDetails :=
  match queueDetails db queueId with
  | .ok details => details
  | .error _ => none

variable {db : Database} {queueId : Uuid}

theorem queueDetails_eq (h : db.Valid) (queueId : Uuid) :
    queueDetails db queueId = .ok (db.details queueId) := by
  have hok : ∃ details, queueDetails db queueId = .ok details := by
    cases hfind : db.queue.find? fun q => q.id = queueId with
    | none => exact ⟨none, by rw [queueDetails, hfind]; rfl⟩
    | some row =>
      obtain ⟨hrow, -⟩ := (find?_key_eq_some h.queueIds).mp hfind
      obtain ⟨details, hdetails, -⟩ := queueDetailsFromRow_describes (h.queueChecked row hrow)
      exact ⟨some details, by
        rw [queueDetails, hfind]
        show some <$> queueDetailsFromRow row = _
        rw [hdetails]
        rfl⟩
  obtain ⟨details, hdetails⟩ := hok
  rw [Database.details, hdetails]

/-- A row of the queue, and what the map has for it. -/
theorem details_eq_some (h : db.Valid) {details : QueueDetails} :
    db.details queueId = some details ↔
      ∃ row ∈ db.queue, row.id = queueId ∧ queueDetailsFromRow row = .ok details := by
  have hdetails := queueDetails_eq h queueId
  rw [queueDetails] at hdetails
  cases hfind : db.queue.find? fun q => q.id = queueId with
  | none =>
    rw [hfind] at hdetails
    rw [← Except.ok.inj hdetails]
    simp only [reduceCtorEq, false_iff]
    rintro ⟨row, hrow, hid, -⟩
    exact find?_key_eq_none.mp hfind row hrow hid
  | some row =>
    obtain ⟨hrow, hid⟩ := (find?_key_eq_some h.queueIds).mp hfind
    rw [hfind] at hdetails
    obtain ⟨read, hread, -⟩ := queueDetailsFromRow_describes (h.queueChecked row hrow)
    have hsome : db.details queueId = some read := by
      replace hdetails : some <$> queueDetailsFromRow row = .ok (db.details queueId) := hdetails
      rw [hread] at hdetails
      exact (Except.ok.inj hdetails).symm
    rw [hsome]
    constructor
    · intro heq
      exact ⟨row, hrow, hid, Option.some.inj heq ▸ hread⟩
    · rintro ⟨other, hother, hotherId, hotherRead⟩
      obtain rfl : other = row := eq_of_key_eq h.queueIds hother hrow (hotherId.trans hid.symm)
      rw [Except.ok.inj (hread.symm.trans hotherRead)]

theorem details_eq_none (h : db.Valid) :
    db.details queueId = none ↔ ∀ row ∈ db.queue, row.id ≠ queueId := by
  constructor
  · intro hnone row hrow hid
    obtain ⟨details, hdetails, -⟩ := queueDetailsFromRow_describes (h.queueChecked row hrow)
    have hsome := (details_eq_some h).mpr ⟨row, hrow, hid, hdetails⟩
    rw [hnone] at hsome
    simp at hsome
  · intro hnone
    by_contra hsome
    obtain ⟨details, hdetails⟩ := Option.ne_none_iff_exists'.mp hsome
    obtain ⟨row, hrow, hid, -⟩ := (details_eq_some h).mp hdetails
    exact hnone row hrow hid

theorem queueName_eq (h : db.Valid) (queueId : Uuid) :
    queueName db queueId = (db.details queueId).map (·.name) := by
  cases hd : db.details queueId with
  | none =>
    rw [queueName, find?_key_eq_none.mpr ((details_eq_none h).mp hd)]
    rfl
  | some details =>
    obtain ⟨row, hrow, hid, hread⟩ := (details_eq_some h).mp hd
    obtain ⟨read, hread', hdescribes⟩ := queueDetailsFromRow_describes (h.queueChecked row hrow)
    obtain rfl := Except.ok.inj (hread.symm.trans hread')
    rw [queueName, (find?_key_eq_some h.queueIds).mpr ⟨hrow, hid⟩]
    exact congrArg some hdescribes.name.symm

/-! ## Effects -/

/-- What an operation answers, and what the map is afterwards. -/
inductive MetadataEffect (db : Database) : MetadataOp → MetadataResponse → Database → Prop
  | failed {op : MetadataOp} {error : MetadataError} : MetadataEffect db op (.failed error) db
  | alreadyExists {queue : Queue} :
      MetadataEffect db (.createQueue queue) (.createQueue .alreadyExists) db
  | created {queue : Queue} {db' : Database} (hnew : db.details queue.id = none)
      (hdetails : db'.details = Function.update db.details queue.id (some queue.details)) :
      MetadataEffect db (.createQueue queue) (.createQueue .created) db'
  | name {queueId : Uuid} :
      MetadataEffect db (.queueName queueId)
        (.queueName ((db.details queueId).map (·.name))) db
  | details {queueId : Uuid} :
      MetadataEffect db (.queueDetails queueId) (.queueDetails (db.details queueId)) db
  | missing {queueId : Uuid} {configuration : QueueConfigurationUpdate}
      (hnone : db.details queueId = none) :
      MetadataEffect db (.updateQueue queueId configuration) (.updateQueue none) db
  | updated {queueId : Uuid} {configuration : QueueConfigurationUpdate} {old new : QueueDetails}
      {db' : Database} (hold : db.details queueId = some old) (hid : new.id = queueId)
      (hname : new.name = old.name)
      (hdetails : db'.details = Function.update db.details queueId (some new)) :
      MetadataEffect db (.updateQueue queueId configuration) (.updateQueue (some new)) db'

/-- Two tables that differ in the row of one queue. -/
theorem details_update {db' : Database} (h : db.Valid) (h' : db'.Valid) {row : QueueRow}
    {new : QueueDetails} (hrow : row ∈ db'.queue) (hid : row.id = queueId)
    (hread : queueDetailsFromRow row = .ok new)
    (hothers : ∀ other, other.id ≠ queueId → (other ∈ db'.queue ↔ other ∈ db.queue)) :
    db'.details = Function.update db.details queueId (some new) := by
  funext other
  by_cases hother : other = queueId
  · subst hother
    rw [Function.update_self]
    exact (details_eq_some h').mpr ⟨row, hrow, hid, hread⟩
  · rw [Function.update_of_ne hother]
    refine Option.ext fun d => ?_
    rw [details_eq_some h', details_eq_some h]
    refine exists_congr fun r => and_congr_left fun hr => hothers r ?_
    rw [hr.1]
    exact hother

theorem createQueue_metadata (h : db.Valid) (now : Int) (queue : Queue) :
    MetadataEffect db (.createQueue queue) (createQueue db now queue).2.metadata
      (createQueue db now queue).1 := by
  have hvalid := (createQueue_effect [] h now queue).2
  obtain ⟨row, hrow, hid⟩ : ∃ row, queue.row now = .ok row ∧ row.id = queue.id :=
    ⟨_, Queue.row_ok queue now, rfl⟩
  have hsettle : createQueue db now queue = settle db .createQueue (insertQueue db row) := by
    rw [createQueue, hrow]
  rw [hsettle] at hvalid ⊢
  cases hinsert : insertQueue db row with
  | error e => exact .failed
  | ok result =>
    rw [hinsert] at hvalid
    obtain ⟨-, hinsert⟩ := guard_eq_ok.mp hinsert
    split at hinsert
    · obtain rfl := Except.ok.inj hinsert
      exact .alreadyExists
    · obtain ⟨hfresh, hinsert⟩ := guard_eq_ok.mp hinsert
      obtain rfl := Except.ok.inj hinsert
      simp only [require_eq_ok, queueExists_iff, not_exists, not_and] at hfresh
      refine .created ((details_eq_none h).mpr fun q hq => hid ▸ hfresh q hq) ?_
      refine details_update h hvalid (List.mem_append_right _ List.mem_cons_self) hid
        (Queue.stored_details hrow) fun other hother => ?_
      show other ∈ db.queue ++ [row] ↔ other ∈ db.queue
      rw [List.mem_append, List.mem_singleton, or_iff_left]
      rintro rfl
      exact hother hid

theorem updateQueue_metadata (h : db.Valid) (now : Int) (queueId : Uuid)
    (configuration : QueueConfigurationUpdate) :
    MetadataEffect db (.updateQueue queueId configuration)
      (updateQueue db now queueId configuration).2.metadata
      (updateQueue db now queueId configuration).1 := by
  have hvalid := (updateQueue_effect [] h now queueId configuration).2
  rw [updateQueue, configuration.parameters_ok] at hvalid ⊢
  simp only [boundParameters] at hvalid ⊢
  generalize configuration.visibilityTimeoutSeconds.map _ = visibility at hvalid ⊢
  generalize configuration.maxDeliveryAttempts.map _ = attempts at hvalid ⊢
  generalize configuration.defaultMessageTtlSeconds.map _ = ttl at hvalid ⊢
  cases hfind : db.queue.find? fun q => q.id = queueId with
  | none =>
    have hconfigure : configureQueue db queueId now visibility attempts ttl = .ok (db, none) := by
      rw [configureQueue, hfind]
      rfl
    rw [hconfigure]
    exact .missing ((details_eq_none h).mpr (find?_key_eq_none.mp hfind))
  | some row =>
    obtain ⟨hrow, hid⟩ := (find?_key_eq_some h.queueIds).mp hfind
    cases hconfigure : configureQueue db queueId now visibility attempts ttl with
    | error e => exact .failed
    | ok result =>
      rw [hconfigure] at hvalid
      rw [configureQueue, hfind] at hconfigure
      obtain ⟨hcheck, hconfigure⟩ := guard_eq_ok.mp hconfigure
      obtain rfl := Except.ok.inj hconfigure
      have hchecked := checkRow_eq_ok.mp hcheck
      obtain ⟨old, hold, hdescribesOld⟩ := queueDetailsFromRow_describes (h.queueChecked row hrow)
      obtain ⟨new, hnew, hdescribes⟩ := queueDetailsFromRow_describes hchecked
      have hread : (some (row.configure now visibility attempts ttl)).mapM queueDetailsFromRow =
          .ok (some new) := by
        show some <$> queueDetailsFromRow _ = _
        rw [hnew]
        rfl
      show MetadataEffect db _ (respond .updateQueue _).metadata _
      rw [hread]
      refine .updated ((details_eq_some h).mpr ⟨row, hrow, hid, hold⟩) (hdescribes.id.trans hid)
        (hdescribes.name.trans hdescribesOld.name.symm) ?_
      refine details_update h hvalid (List.mem_map.mpr ⟨row, hrow, if_pos hid⟩) hid hnew ?_
      intro other hother
      constructor
      · intro hmem
        obtain ⟨q, hq, rfl⟩ := List.mem_map.mp hmem
        by_cases hqid : q.id = queueId
        · rw [if_pos hqid] at hother
          exact absurd hid hother
        · rwa [if_neg hqid]
      · intro hmem
        exact List.mem_map.mpr ⟨other, hmem, if_neg hother⟩

/-- **Every operation answers by the map and changes it at its own queue only.** -/
theorem MetadataOp.run_effect (h : db.Valid) (now : Int) (op : MetadataOp) :
    MetadataEffect db op (op.run db now).2 (op.run db now).1 ∧ (op.run db now).1.Valid := by
  cases op with
  | createQueue queue =>
    exact ⟨createQueue_metadata h now queue, (createQueue_effect [] h now queue).2⟩
  | queueName queueId =>
    rw [MetadataOp.run, queueName_eq h]
    exact ⟨.name, h⟩
  | queueDetails queueId =>
    rw [MetadataOp.run, queueDetails_eq h]
    exact ⟨.details, h⟩
  | updateQueue queueId configuration =>
    exact ⟨updateQueue_metadata h now queueId configuration,
      (updateQueue_effect [] h now queueId configuration).2⟩

/-- A queue keeps its name. -/
theorem MetadataEffect.name_kept {db' : Database} {op : MetadataOp} {response : MetadataResponse}
    (h : MetadataEffect db op response db') {name : String}
    (hname : (db.details queueId).map (·.name) = some name) :
    (db'.details queueId).map (·.name) = some name := by
  cases h with
  | @created queue _ hnew hdetails =>
    rw [hdetails]
    by_cases hid : queueId = queue.id
    · rw [hid, hnew] at hname
      simp at hname
    · rwa [Function.update_of_ne hid]
  | @updated target _ old new _ hold _ hsame hdetails =>
    rw [hdetails]
    by_cases hid : queueId = target
    · rw [hid, hold] at hname
      rw [hid, Function.update_self]
      exact (congrArg some hsame).trans hname
    · rwa [Function.update_of_ne hid]
  | failed | alreadyExists | name | details | missing => exact hname

end Retsu
