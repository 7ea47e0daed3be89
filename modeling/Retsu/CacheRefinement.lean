/-
  Calls one after the other: the cached repository answers as PostgreSQL alone does.

  A sequential history makes one call at a time, in any process, while entries are evicted, time
  passes and cache commands fail; only the writes through the cache succeed.  Between the calls
  whatever is cached agrees with the database (`ChainState.Coherent`), and `CallInv` carries this
  through the awaits of a call.
-/
import Retsu.CachedRepository
import Retsu.History

namespace Retsu

open Relational Concurrency

variable {config : CacheConfig} {s₀ s s' : ChainState} {id process : Nat} {op : MetadataOp}
  {c : MetadataCall} {response : MetadataResponse}

/-! ## Histories -/

/-- Nobody's step: time passes, or an entry goes. -/
def ChainAction.environment : ChainAction → Bool
  | elapse _ | evict _ | evictName _ _ => true
  | start _ _ _ | await _ _ => false

def CallPhase.writesThrough : CallPhase → Bool
  | writeThrough _ _ => true
  | _ => false

/-- A step of the call alone; its write through the cache succeeds. -/
def ownStep (id : Nat) (s : ChainState) (a : ChainAction) : Prop :=
  match a with
  | .await other outcome =>
    other = id ∧ ((s.calls id).all fun c => !c.phase.writesThrough || outcome.ok) = true
  | a => a.environment = true

instance (id : Nat) (s : ChainState) (a : ChainAction) : Decidable (ownStep id s a) :=
  match a with
  | .await other outcome => inferInstanceAs (Decidable (other = id ∧
      ((s.calls id).all fun c => !c.phase.writesThrough || outcome.ok) = true))
  | .start _ _ _ | .elapse _ | .evict _ | .evictName _ _ => inferInstanceAs (Decidable (_ = true))

/-- The call `id` has started in `s` and has come to `s'`, with no other call in between. -/
def CallRun (config : CacheConfig) (id process : Nat) (op : MetadataOp) (s s' : ChainState) : Prop :=
  s.calls id = none ∧
    Execution (ChainState.step config) (ownStep id) (s.begin config id process op).advance s'

/-- The call has answered. -/
def ChainState.Answered (s : ChainState) (id : Nat) (c : MetadataCall)
    (response : MetadataResponse) : Prop :=
  s.calls id = some c ∧ c.phase = .done response

/-- Calls one after the other, from empty caches. -/
inductive SequentialHistory (config : CacheConfig) : ChainState → Prop
  | start {db : Database} (hvalid : db.Valid) : SequentialHistory config (.start db)
  | environment {s s' : ChainState} {a : ChainAction} (history : SequentialHistory config s)
      (ha : a.environment = true) (hstep : s.step config a = some s') : SequentialHistory config s'
  | call {s s' : ChainState} {id process : Nat} {op : MetadataOp} {c : MetadataCall}
      {response : MetadataResponse} (history : SequentialHistory config s)
      (hrun : CallRun config id process op s s') (hanswered : s'.Answered id c response) :
      SequentialHistory config s'

/-! ## Between calls -/

/-- What is cached agrees with the database, and no call is under way. -/
structure ChainState.Coherent (config : CacheConfig) (s : ChainState) : Prop where
  valid : s.db.Valid
  names : ∀ p q name, s.names p q = some name → (s.db.details q).map (·.name) = some name
  entries : config.distributed = true → ∀ q e, s.store (detailsKey q) = some e →
    ∃ value, e.value = .queueDetails value ∧ value.intoDetails = s.db.details q
  quiet : ∀ id c, s.calls id = some c → ∃ response, c.phase = .done response
  loaders : ∀ p q, s.loaders p q = none

/-- The database is as it was, and no name and no details have been cached since. -/
structure ChainState.Untouched (s₀ s : ChainState) : Prop where
  db : s.db = s₀.db
  names : ∀ p q, s.names p q = s₀.names p q ∨ s.names p q = none
  entries : ∀ q, s.store (detailsKey q) = s₀.store (detailsKey q) ∨ s.store (detailsKey q) = none

/-- PostgreSQL alone would have answered this, and left this database. -/
def AsPostgres (s₀ s : ChainState) (op : MetadataOp) (response : MetadataResponse) : Prop :=
  ∃ now, op.run s₀.db now = (s.db, response)

/-- How an answer compares with PostgreSQL's. -/
structure Settled (s₀ s : ChainState) (op : MetadataOp) (c : MetadataCall)
    (response : MetadataResponse) : Prop where
  answer : c.times.databaseFailed = false → AsPostgres s₀ s op response
  failed : c.times.databaseFailed = true → ∃ error, response = .failed error
  untouched : ∀ error, response = .failed error → s₀.Untouched s

/-! ## During a call -/

def MetadataOp.isRead : MetadataOp → Bool
  | queueName _ | queueDetails _ => true
  | createQueue _ | updateQueue _ _ => false

/-- What has happened so far, by the await that a call is at. -/
inductive PhaseInv (config : CacheConfig) (s₀ : ChainState) (op : MetadataOp) (s : ChainState)
    (c : MetadataCall) : Prop
  | lookup (hphase : c.phase = .lookup) {queueId : Uuid} (hop : op = .queueName queueId)
      (hmemory : config.inMemory c.process = true) (huntouched : s₀.Untouched s)
      (hfailed : c.times.databaseFailed = false)
  | cache (hphase : c.phase = .get ∨ c.phase = .lock ∨ c.phase = .recheck ∨ c.phase = .waiting ∨
        c.phase = .load)
      (hread : op.isRead = true) (hdistributed : config.distributed = true)
      (huntouched : s₀.Untouched s) (hfailed : c.times.databaseFailed = false)
  | database {query : MetadataOp} (hphase : c.phase = .database query)
      (hquery : query = op ∨ (op.isRead = true ∧ query = .queueDetails op.queueId))
      (huntouched : s₀.Untouched s) (hfailed : c.times.databaseFailed = false)
  | populate {value : CachedQueueDetails} (hphase : c.phase = .populate value)
      (hread : op.isRead = true) (hdb : s.db = s₀.db)
      (hvalue : value.intoDetails = s.db.details op.queueId)
      (hfailed : c.times.databaseFailed = false)
  | writeThrough {response : MetadataResponse} {details : QueueDetails}
      (hphase : c.phase = .writeThrough response details)
      (hdetails : s.db.details details.id = some details) (hanswer : AsPostgres s₀ s op response)
      (hsuccess : ∀ error, response ≠ .failed error) (hfailed : c.times.databaseFailed = false)
  | returning {response : MetadataResponse} (hphase : c.phase = .returning response)
      (hsettled : Settled s₀ s op c response)
  | done {response : MetadataResponse} (hphase : c.phase = .done response)
      (hsettled : Settled s₀ s op c response)

/-- The invariant of the call `id`, started in `s₀`. -/
structure CallInv (config : CacheConfig) (s₀ : ChainState) (id process : Nat) (op : MetadataOp)
    (s : ChainState) (c : MetadataCall) : Prop where
  call : s.calls id = some c
  sameProcess : c.process = process
  sameOp : c.op = op
  others : ∀ other, other ≠ id → s.calls other = s₀.calls other
  valid : s.db.Valid
  names : ∀ p q name, s.names p q = some name → (s.db.details q).map (·.name) = some name
  /-- An entry agrees with the database, unless the call is about to overwrite it. -/
  entries : config.distributed = true → ∀ q e, s.store (detailsKey q) = some e →
    (∃ response details, c.phase = .writeThrough response details ∧ details.id = q) ∨
      ∃ value, e.value = .queueDetails value ∧ value.intoDetails = s.db.details q
  /-- The call is the only one that can be loading a name. -/
  loaders : ∀ p q, s.loaders p q ≠ none → p = process ∧ op = .queueName q ∧
    config.inMemory process = true ∧ c.phase ≠ .lookup ∧ ∀ response, c.phase ≠ .done response
  phase : PhaseInv config s₀ op s c

/-! ## What leaves the caches alone -/

/-- Names and entries of `s'` are those of `s`, but for some that are gone. -/
structure ChainState.Shrinks (s s' : ChainState) : Prop where
  names : ∀ p q, s'.names p q = s.names p q ∨ s'.names p q = none
  entries : ∀ q, s'.store (detailsKey q) = s.store (detailsKey q) ∨ s'.store (detailsKey q) = none

theorem ChainState.Shrinks.of_eq (hnames : s'.names = s.names) (hstore : s'.store = s.store) :
    s.Shrinks s' where
  names p q := Or.inl (by rw [hnames])
  entries q := Or.inl (by rw [hstore])

theorem ChainState.Untouched.mono (h : s₀.Untouched s) (hdb : s'.db = s.db) (hshrinks : s.Shrinks s') :
    s₀.Untouched s' where
  db := hdb.trans h.db
  names p q := by
    rcases hshrinks.names p q with hsame | hgone
    · rw [hsame]
      exact h.names p q
    · exact Or.inr hgone
  entries q := by
    rcases hshrinks.entries q with hsame | hgone
    · rw [hsame]
      exact h.entries q
    · exact Or.inr hgone

theorem Settled.mono (h : Settled s₀ s op c response) (hdb : s'.db = s.db)
    (hshrinks : s.Shrinks s') : Settled s₀ s' op c response where
  answer hfailed := by
    rw [AsPostgres, hdb]
    exact h.answer hfailed
  failed := h.failed
  untouched error he := (h.untouched error he).mono hdb hshrinks

theorem PhaseInv.mono (h : PhaseInv config s₀ op s c) (hdb : s'.db = s.db)
    (hshrinks : s.Shrinks s') : PhaseInv config s₀ op s' c := by
  cases h with
  | lookup hphase hop hmemory huntouched hfailed =>
    exact .lookup hphase hop hmemory (huntouched.mono hdb hshrinks) hfailed
  | cache hphase hread hdistributed huntouched hfailed =>
    exact .cache hphase hread hdistributed (huntouched.mono hdb hshrinks) hfailed
  | database hphase hquery huntouched hfailed =>
    exact .database hphase hquery (huntouched.mono hdb hshrinks) hfailed
  | populate hphase hread hdb₀ hvalue hfailed =>
    exact .populate hphase hread (hdb.trans hdb₀) (hdb ▸ hvalue) hfailed
  | writeThrough hphase hdetails hanswer hsuccess hfailed =>
    refine .writeThrough hphase (hdb ▸ hdetails) ?_ hsuccess hfailed
    rw [AsPostgres, hdb]
    exact hanswer
  | returning hphase hsettled => exact .returning hphase (hsettled.mono hdb hshrinks)
  | done hphase hsettled => exact .done hphase (hsettled.mono hdb hshrinks)

/-- The same, read off the await. -/
def PhaseSays (config : CacheConfig) (s₀ : ChainState) (op : MetadataOp) (s : ChainState)
    (c : MetadataCall) : CallPhase → Prop
  | .lookup => op = .queueName op.queueId ∧ config.inMemory c.process = true ∧ s₀.Untouched s ∧
      c.times.databaseFailed = false
  | .joined _ => False
  | .get | .lock | .recheck | .waiting | .load => op.isRead = true ∧ config.distributed = true ∧
      s₀.Untouched s ∧ c.times.databaseFailed = false
  | .database query => (query = op ∨ (op.isRead = true ∧ query = .queueDetails op.queueId)) ∧
      s₀.Untouched s ∧ c.times.databaseFailed = false
  | .populate value => op.isRead = true ∧ s.db = s₀.db ∧
      value.intoDetails = s.db.details op.queueId ∧ c.times.databaseFailed = false
  | .writeThrough response details => s.db.details details.id = some details ∧
      AsPostgres s₀ s op response ∧ (∀ error, response ≠ .failed error) ∧
      c.times.databaseFailed = false
  | .returning response | .done response => Settled s₀ s op c response

theorem PhaseInv.says (h : PhaseInv config s₀ op s c) : PhaseSays config s₀ op s c c.phase := by
  cases h with
  | @lookup hphase queueId hop hmemory huntouched hfailed =>
    rw [hphase]
    exact ⟨by rw [hop]; rfl, hmemory, huntouched, hfailed⟩
  | cache hphase hread hdistributed huntouched hfailed =>
    rcases hphase with hphase | hphase | hphase | hphase | hphase <;> rw [hphase] <;>
      exact ⟨hread, hdistributed, huntouched, hfailed⟩
  | database hphase hquery huntouched hfailed =>
    rw [hphase]
    exact ⟨hquery, huntouched, hfailed⟩
  | populate hphase hread hdb hvalue hfailed =>
    rw [hphase]
    exact ⟨hread, hdb, hvalue, hfailed⟩
  | writeThrough hphase hdetails hanswer hsuccess hfailed =>
    rw [hphase]
    exact ⟨hdetails, hanswer, hsuccess, hfailed⟩
  | returning hphase hsettled | done hphase hsettled =>
    rw [hphase]
    exact hsettled

/-- What the invariant says of a call that is known to be at an await. -/
theorem PhaseInv.at_phase {phase : CallPhase} (h : PhaseInv config s₀ op s c)
    (hphase : c.phase = phase) : PhaseSays config s₀ op s c phase :=
  hphase ▸ h.says

/-- With one call at a time there is no load to join. -/
theorem PhaseInv.not_joined (h : PhaseInv config s₀ op s c) {loader : Nat} :
    c.phase ≠ .joined loader :=
  fun hjoined => h.at_phase hjoined

/-- Names that agree with the database still do when some are gone. -/
theorem ChainState.Shrinks.names_agree (hshrinks : s.Shrinks s') (hdb : s'.db = s.db)
    (h : ∀ p q name, s.names p q = some name → (s.db.details q).map (·.name) = some name) :
    ∀ p q name, s'.names p q = some name → (s'.db.details q).map (·.name) = some name := by
  intro p q name hname
  rw [hdb]
  rcases hshrinks.names p q with hsame | hgone
  · exact h p q name (hsame ▸ hname)
  · rw [hgone] at hname
    simp at hname

theorem ChainState.Shrinks.entry (hshrinks : s.Shrinks s') {q : Uuid} {e : CacheEntry}
    (he : s'.store (detailsKey q) = some e) : s.store (detailsKey q) = some e := by
  rcases hshrinks.entries q with hsame | hgone
  · rwa [hsame] at he
  · rw [hgone] at he
    simp at he

/-- What others do to the state of a call: nothing but evictions. -/
theorem CallInv.mono (h : CallInv config s₀ id process op s c) (hdb : s'.db = s.db)
    (hcalls : s'.calls = s.calls) (hloaders : s'.loaders = s.loaders) (hshrinks : s.Shrinks s') :
    CallInv config s₀ id process op s' c where
  call := hcalls ▸ h.call
  sameProcess := h.sameProcess
  sameOp := h.sameOp
  others := hcalls ▸ h.others
  valid := hdb ▸ h.valid
  names := hshrinks.names_agree hdb h.names
  entries hdistributed q e he := by
    rw [hdb]
    exact h.entries hdistributed q e (hshrinks.entry he)
  loaders := hloaders ▸ h.loaders
  phase := h.phase.mono hdb hshrinks

theorem ChainState.Coherent.mono (h : s.Coherent config) (hdb : s'.db = s.db)
    (hcalls : s'.calls = s.calls) (hloaders : s'.loaders = s.loaders) (hshrinks : s.Shrinks s') :
    s'.Coherent config where
  valid := hdb ▸ h.valid
  names := hshrinks.names_agree hdb h.names
  entries hdistributed q e he := by
    rw [hdb]
    exact h.entries hdistributed q e (hshrinks.entry he)
  quiet := hcalls ▸ h.quiet
  loaders := hloaders ▸ h.loaders

/-- Evictions and the passing of time. -/
theorem environment_shrinks {a : ChainAction} (ha : a.environment = true)
    (hact : s.act config a = some s') :
    s'.db = s.db ∧ s'.calls = s.calls ∧ s'.loaders = s.loaders ∧ s.Shrinks s' := by
  cases a with
  | start id process op => simp [ChainAction.environment] at ha
  | await id outcome => simp [ChainAction.environment] at ha
  | elapse duration =>
    obtain rfl := Option.some.inj hact
    exact ⟨rfl, rfl, rfl, .of_eq rfl rfl⟩
  | evict key =>
    obtain rfl := Option.some.inj hact
    refine ⟨rfl, rfl, rfl, fun _ _ => Or.inl rfl, fun q => ?_⟩
    show s.store.evict key (detailsKey q) = _ ∨ s.store.evict key (detailsKey q) = none
    unfold CacheStore.evict
    split
    · exact Or.inr rfl
    · exact Or.inl rfl
  | evictName p q =>
    obtain rfl := Option.some.inj hact
    refine ⟨rfl, rfl, rfl, fun p' q' => ?_, fun _ => Or.inl rfl⟩
    show (if p' = p ∧ q' = q then none else s.names p' q') = _ ∨
      (if p' = p ∧ q' = q then none else s.names p' q') = none
    split
    · exact Or.inr rfl
    · exact Or.inl rfl

/-- A step is an action, counted. -/
theorem step_eq_some {a : ChainAction} (h : s.step config a = some s') :
    ∃ s'', s.act config a = some s'' ∧ s' = s''.advance := by
  obtain ⟨s'', hact, rfl⟩ := Option.map_eq_some_iff.mp h
  exact ⟨s'', hact, rfl⟩

theorem CallInv.advance (h : CallInv config s₀ id process op s c) :
    CallInv config s₀ id process op s.advance c :=
  h.mono rfl rfl rfl (.of_eq rfl rfl)

/-! ## The awaits of a call -/

/-- L1 keeps the name that the database has. -/
theorem Settled.remembered (h₀ : s₀.db.Valid) (hsettled : Settled s₀ s op c response) {q : Uuid}
    {name : String} (hremembers : op.remembers response = some (q, name)) :
    (s.db.details q).map (·.name) = some name := by
  have hsuccess : c.times.databaseFailed = false := by
    by_contra htrue
    obtain ⟨error, rfl⟩ := hsettled.failed (by simpa using htrue)
    cases op <;> simp [MetadataOp.remembers] at hremembers
  obtain ⟨now, hrun⟩ := hsettled.answer hsuccess
  have heffect := (op.run_effect h₀ now).1
  rw [hrun] at heffect
  generalize s.db = db at heffect ⊢
  cases heffect with
  | created hnew hdetails =>
    obtain ⟨rfl, rfl⟩ := Prod.mk.inj (Option.some.inj hremembers)
    rw [hdetails, Function.update_self]
    rfl
  | @updated queueId configuration old new _ hold hid hname hdetails =>
    obtain ⟨rfl, rfl⟩ := Prod.mk.inj (Option.some.inj hremembers)
    rw [hdetails, hid, Function.update_self]
    rfl
  | @name queueId =>
    cases hname : (s₀.db.details queueId).map (·.name) with
    | none => simp [hname, MetadataOp.remembers] at hremembers
    | some found =>
      simp only [hname, MetadataOp.remembers, Option.some.injEq, Prod.mk.injEq] at hremembers
      obtain ⟨rfl, rfl⟩ := hremembers
      exact hname
  | failed | alreadyExists | details | missing => simp [MetadataOp.remembers] at hremembers

section Awaits

variable (h : CallInv config s₀ id process op s c) {c' : MetadataCall}

include h

/-- An await that changes nothing but the call, and perhaps the loading marker. -/
theorem CallInv.move (store : CacheStore) (hprocess : c'.process = c.process) (hop : c'.op = c.op)
    (hstore : ∀ q, store (detailsKey q) = s.store (detailsKey q))
    (hthrough : c.phase.writesThrough = false)
    (hloading : c.phase = .lookup ∨ (c'.phase ≠ .lookup ∧ ∀ response, c'.phase ≠ .done response))
    (hphase : PhaseInv config s₀ op { s with store } c') :
    CallInv config s₀ id process op ({ s with store }.setCall id c') c' where
  call := if_pos rfl
  sameProcess := hprocess.trans h.sameProcess
  sameOp := hop.trans h.sameOp
  others other hne := (if_neg hne).trans (h.others other hne)
  valid := h.valid
  names := h.names
  entries hdistributed q e he := by
    rcases h.entries hdistributed q e (hstore q ▸ he) with ⟨response, details, hpending, -⟩ | hentry
    · rw [hpending] at hthrough
      simp [CallPhase.writesThrough] at hthrough
    · exact Or.inr hentry
  loaders p q hloader := by
    obtain ⟨hp, hname, hmemory, hlookup, hdone⟩ := h.loaders p q hloader
    rcases hloading with hstart | hrunning
    · exact absurd hstart hlookup
    · exact ⟨hp, hname, hmemory, hrunning⟩
  phase := hphase.mono rfl (.of_eq rfl rfl)

/-- A call at a cache command is a read that has done nothing yet. -/
theorem CallInv.at_cache (hphase : c.phase = .get ∨ c.phase = .lock ∨ c.phase = .recheck ∨
    c.phase = .waiting ∨ c.phase = .load) :
    op.isRead = true ∧ config.distributed = true ∧ s₀.Untouched s ∧
      c.times.databaseFailed = false := by
  rcases hphase with hphase | hphase | hphase | hphase | hphase <;>
    exact h.phase.at_phase hphase

theorem CallInv.at_read {missed : CallPhase} (hreads : c.phase.Reads missed) :
    (op.isRead = true ∧ config.distributed = true ∧ s₀.Untouched s ∧
      c.times.databaseFailed = false) ∧ c.phase.writesThrough = false ∧
      (missed = .lock ∨ missed = .load) := by
  generalize hphase : c.phase = phase at hreads
  cases hreads with
  | get => exact ⟨h.at_cache (by simp [hphase]), rfl, Or.inl rfl⟩
  | recheck => exact ⟨h.at_cache (by simp [hphase]), rfl, Or.inr rfl⟩
  | waiting => exact ⟨h.at_cache (by simp [hphase]), rfl, Or.inl rfl⟩

/-- What PostgreSQL alone answers to a read. -/
theorem CallInv.read_answer (hread : op.isRead = true) (hdb : s.db = s₀.db) :
    AsPostgres s₀ s op (op.answer (s.db.details op.queueId)) := by
  refine ⟨0, ?_⟩
  rw [← hdb]
  cases op with
  | queueName queueId => rw [MetadataOp.run, queueName_eq h.valid]; rfl
  | queueDetails queueId => rw [MetadataOp.run, queueDetails_eq h.valid]; rfl
  | createQueue queue => simp [MetadataOp.isRead] at hread
  | updateQueue queueId configuration => simp [MetadataOp.isRead] at hread

omit h in
theorem answer_ne_failed {details : Option QueueDetails} {error : MetadataError} :
    op.answer details ≠ .failed error := by
  cases op <;> simp [MetadataOp.answer]

/-- A read that has found what the database has. -/
theorem CallInv.settled_read {details : Option QueueDetails} (hread : op.isRead = true)
    (hdb : s.db = s₀.db) (hdetails : details = s.db.details op.queueId)
    (hfailed : c'.times.databaseFailed = false) :
    Settled s₀ s op c' (op.answer details) where
  answer _ := hdetails ▸ h.read_answer hread hdb
  failed htrue := by simp [hfailed] at htrue
  untouched error he := absurd he answer_ne_failed

/-- A call whose statement was not executed. -/
theorem CallInv.unavailable (huntouched : s₀.Untouched s) (hthrough : c.phase.writesThrough = false) :
    CallInv config s₀ id process op (s.setCall id { c with
      phase := .returning (.failed .unavailable)
      times := { c.times with databaseFailed := true } })
      { c with
        phase := .returning (.failed .unavailable)
        times := { c.times with databaseFailed := true } } := by
  refine h.move s.store rfl rfl (fun _ => rfl) hthrough (Or.inr ⟨by simp, by simp⟩)
    (.returning rfl ?_)
  exact ⟨fun hfalse => by simp at hfalse, fun _ => ⟨_, rfl⟩,
    fun _ _ => huntouched.mono rfl (.of_eq rfl rfl)⟩

/-- A statement that changes the configuration of one queue at most, whose details the call is
    then about to cache. -/
theorem CallInv.set_db {db : Database} (hvalid : db.Valid) (hprocess : c'.process = c.process)
    (hop : c'.op = c.op) (hthrough : c.phase.writesThrough = false)
    (hrunning : c'.phase ≠ .lookup ∧ ∀ response, c'.phase ≠ .done response)
    (hnames : ∀ q name, (s.db.details q).map (·.name) = some name →
      (db.details q).map (·.name) = some name)
    (hentries : config.distributed = true → ∀ q, db.details q = s.db.details q ∨
      ∃ response details, c'.phase = .writeThrough response details ∧ details.id = q)
    (hphase : PhaseInv config s₀ op { s with db } c') :
    CallInv config s₀ id process op ({ s with db }.setCall id c') c' where
  call := if_pos rfl
  sameProcess := hprocess.trans h.sameProcess
  sameOp := hop.trans h.sameOp
  others other hne := (if_neg hne).trans (h.others other hne)
  valid := hvalid
  names p q name hname := hnames q name (h.names p q name hname)
  entries hdistributed q e he := by
    rcases hentries hdistributed q with hsame | hpending
    · rcases h.entries hdistributed q e he with ⟨response, details, hphase, -⟩ | ⟨value, hvalue, hv⟩
      · rw [hphase] at hthrough
        simp [CallPhase.writesThrough] at hthrough
      · exact Or.inr ⟨value, hvalue, hv.trans hsame.symm⟩
    · exact Or.inl hpending
  loaders p q hloader := by
    obtain ⟨hp, hname, hmemory, -, -⟩ := h.loaders p q hloader
    exact ⟨hp, hname, hmemory, hrunning⟩
  phase := hphase.mono rfl (.of_eq rfl rfl)

/-- The call's own statement. -/
theorem CallInv.query_own (hphase : c.phase = .database op) (huntouched : s₀.Untouched s)
    (now : Int) (times : CallTimes) (htimes : times.databaseFailed = false) :
    CallInv config s₀ id process op
      ({ s with db := (op.run s.db now).1 }.setCall id
        { c with phase := config.afterDatabase c.op (op.run s.db now).2, times })
      { c with phase := config.afterDatabase c.op (op.run s.db now).2, times } := by
  obtain ⟨heffect, hvalid⟩ := op.run_effect h.valid now
  have hanswer : AsPostgres s₀ { s with db := (op.run s.db now).1 } op (op.run s.db now).2 :=
    ⟨now, by rw [← huntouched.db]⟩
  have hthrough : c.phase.writesThrough = false := by simp [hphase, CallPhase.writesThrough]
  rw [h.sameOp]
  generalize (op.run s.db now).1 = db, (op.run s.db now).2 = response at heffect hvalid hanswer ⊢
  have hsettled : (∀ error, response = .failed error → db = s.db) →
      ∀ c' : MetadataCall, c'.times = times → Settled s₀ { s with db } op c' response := by
    refine fun hdb c' htimes' => ⟨fun _ => hanswer, fun htrue => ?_, fun error he => ?_⟩
    · simp [htimes', htimes] at htrue
    · exact huntouched.mono (hdb error he) (.of_eq rfl rfl)
  have hkept : ∀ q name, (s.db.details q).map (·.name) = some name →
      (db.details q).map (·.name) = some name := fun q name hname => heffect.name_kept hname
  have hreturns : ∀ response', response' = response → (∀ q, db.details q = s.db.details q) →
      (∀ error, response = .failed error → db = s.db) →
      CallInv config s₀ id process op
        ({ s with db }.setCall id ⟨c.process, op, .returning response', times⟩)
        ⟨c.process, op, .returning response', times⟩ := by
    rintro response' rfl hsame hdb
    exact h.set_db hvalid rfl h.sameOp.symm hthrough ⟨by simp, by simp⟩ hkept
      (fun _ q => Or.inl (hsame q)) (.returning rfl (hsettled hdb _ rfl))
  have hwrites : ∀ details : QueueDetails,
      db.details = Function.update s.db.details details.id (some details) →
      (∀ error, response ≠ .failed error) → config.distributed = true →
      CallInv config s₀ id process op
        ({ s with db }.setCall id ⟨c.process, op, .writeThrough response details, times⟩)
        ⟨c.process, op, .writeThrough response details, times⟩ := by
    intro details hdetails hsuccess hdistributed
    refine h.set_db hvalid rfl h.sameOp.symm hthrough ⟨by simp, by simp⟩ hkept (fun _ q => ?_)
      (.writeThrough rfl ?_ hanswer hsuccess htimes)
    · by_cases hq : q = details.id
      · exact Or.inr ⟨response, details, rfl, hq.symm⟩
      · rw [hdetails, Function.update_of_ne hq]
        exact Or.inl rfl
    · show db.details details.id = some details
      rw [hdetails, Function.update_self]
  cases heffect with
  | @failed _ error =>
    have hphase' : config.afterDatabase op (.failed error) = .returning (.failed error) := by
      cases op <;> rfl
    rw [hphase']
    exact hreturns _ rfl (fun _ => rfl) fun _ _ => rfl
  | alreadyExists | name | details | missing =>
    exact hreturns _ rfl (fun _ => rfl) fun _ _ => rfl
  | @created queue _ hnew hdetails =>
    by_cases hdistributed : config.distributed = true
    · have hphase' : config.afterDatabase (.createQueue queue) (.createQueue .created) =
          .writeThrough (.createQueue .created) queue.details := if_pos hdistributed
      rw [hphase']
      exact hwrites queue.details hdetails (by simp) hdistributed
    · have hphase' : config.afterDatabase (.createQueue queue) (.createQueue .created) =
          .returning (.createQueue .created) := if_neg hdistributed
      rw [hphase']
      exact h.set_db hvalid rfl h.sameOp.symm hthrough ⟨by simp, by simp⟩ hkept
        (fun htrue => absurd htrue hdistributed) (.returning rfl (hsettled (by simp) _ rfl))
  | @updated queueId configuration old new _ hold hid hname hdetails =>
    subst hid
    by_cases hdistributed : config.distributed = true
    · have hphase' : config.afterDatabase (.updateQueue new.id configuration)
          (.updateQueue (some new)) = .writeThrough (.updateQueue (some new)) new :=
        if_pos hdistributed
      rw [hphase']
      exact hwrites new hdetails (by simp) hdistributed
    · have hphase' : config.afterDatabase (.updateQueue new.id configuration)
          (.updateQueue (some new)) = .returning (.updateQueue (some new)) :=
        if_neg hdistributed
      rw [hphase']
      exact h.set_db hvalid rfl h.sameOp.symm hthrough ⟨by simp, by simp⟩ hkept
        (fun htrue => absurd htrue hdistributed) (.returning rfl (hsettled (by simp) _ rfl))

/-- The statement of a read, whoever it is for, answers by the map. -/
theorem CallInv.query_details (now : Int) :
    (MetadataOp.queueDetails op.queueId).run s.db now =
      (s.db, .queueDetails (s.db.details op.queueId)) := by
  rw [MetadataOp.run, queueDetails_eq h.valid]

omit h in
theorem isRead_cases (hread : op.isRead = true) :
    op = .queueName op.queueId ∨ op = .queueDetails op.queueId := by
  cases op <;> simp_all [MetadataOp.isRead, MetadataOp.queueId]

theorem CallInv.queried {query : MetadataOp} {next : MetadataResponse → CallPhase}
    (hqueries : c.Queries config query next) (now : Int) (times : CallTimes)
    (htimes : times.databaseFailed = c.times.databaseFailed) :
    CallInv config s₀ id process op
      ({ s with db := (query.run s.db now).1 }.setCall id
        { c with phase := next (query.run s.db now).2, times })
      { c with phase := next (query.run s.db now).2, times } := by
  cases hqueries with
  | @database query hphase =>
    obtain ⟨hquery, huntouched, hfailed⟩ := h.phase.at_phase hphase
    rcases hquery with rfl | ⟨hread, rfl⟩
    · exact h.query_own hphase huntouched now times (htimes.trans hfailed)
    · -- a read that has given up the cache
      rw [h.query_details, h.sameOp]
      have hanswer : config.afterDatabase op (.queueDetails (s.db.details op.queueId)) =
          .returning (op.answer (s.db.details op.queueId)) := by
        rcases isRead_cases hread with heq | heq <;> rw [heq] <;> rfl
      rw [hanswer]
      exact h.set_db h.valid rfl h.sameOp.symm (by simp [hphase, CallPhase.writesThrough])
        ⟨by simp, by simp⟩ (fun _ _ hname => hname) (fun _ _ => Or.inl rfl)
        (.returning rfl (h.settled_read hread huntouched.db rfl (htimes.trans hfailed)))
  | load hphase =>
    obtain ⟨hread, hdistributed, huntouched, hfailed⟩ := h.at_cache (by simp [hphase])
    rw [h.sameOp, h.query_details]
    have hthrough : c.phase.writesThrough = false := by simp [hphase, CallPhase.writesThrough]
    have hpopulate : ∀ value : CachedQueueDetails, value.intoDetails = s.db.details op.queueId →
        CallInv config s₀ id process op
          ({ s with db := s.db }.setCall id ⟨c.process, op, .populate value, times⟩)
          ⟨c.process, op, .populate value, times⟩ := by
      intro value hvalue
      exact h.set_db h.valid rfl h.sameOp.symm hthrough ⟨by simp, by simp⟩
        (fun _ _ hname => hname) (fun _ _ => Or.inl rfl)
        (.populate rfl hread huntouched.db hvalue (htimes.trans hfailed))
    cases hdetails : s.db.details op.queueId with
    | none => exact hpopulate .missing hdetails.symm
    | some details => exact hpopulate (.found details) hdetails.symm

theorem CallInv.at_query {query : MetadataOp} {next : MetadataResponse → CallPhase}
    (hqueries : c.Queries config query next) :
    s₀.Untouched s ∧ c.phase.writesThrough = false := by
  cases hqueries with
  | database hphase =>
    obtain ⟨-, huntouched, -⟩ := h.phase.at_phase hphase
    exact ⟨huntouched, by simp [hphase, CallPhase.writesThrough]⟩
  | load hphase =>
    obtain ⟨-, -, huntouched, -⟩ := h.at_cache (by simp [hphase])
    exact ⟨huntouched, by simp [hphase, CallPhase.writesThrough]⟩

/-- What the call is about to cache is what the database has. -/
theorem CallInv.at_write {queueId : Uuid} {value : CachedQueueDetails}
    (hwrites : c.Writes queueId value response) (times : CallTimes)
    (htimes : times.databaseFailed = c.times.databaseFailed) :
    value.intoDetails = s.db.details queueId ∧ (∀ error, response ≠ .failed error) ∧
      Settled s₀ s op ⟨c.process, op, .returning response, times⟩ response := by
  cases hwrites with
  | @populate value hphase =>
    obtain ⟨hread, hdb, hvalue, hfailed⟩ := h.phase.at_phase hphase
    rw [h.sameOp]
    exact ⟨hvalue, fun _ => answer_ne_failed,
      h.settled_read hread hdb hvalue (htimes.trans hfailed)⟩
  | @writeThrough response details hphase =>
    obtain ⟨hdetails, hanswer, hsuccess, hfailed⟩ := h.phase.at_phase hphase
    refine ⟨hdetails.symm, hsuccess, fun _ => hanswer, fun htrue => ?_, fun error he => ?_⟩
    · rw [htimes, hfailed] at htrue
      simp at htrue
    · exact absurd he (hsuccess error)

theorem CallInv.wrote {queueId : Uuid} {value : CachedQueueDetails} {e : CacheEntry}
    (hwrites : c.Writes queueId value response) (he : e.value = .queueDetails value)
    (times : CallTimes) (htimes : times.databaseFailed = c.times.databaseFailed) :
    CallInv config s₀ id process op
      ({ s with store := s.store.set (detailsKey queueId) e }.setCall id
        { c with phase := .returning response, times })
      { c with phase := .returning response, times } := by
  obtain ⟨hvalue, hsuccess, hsettled⟩ := h.at_write hwrites times htimes
  rw [h.sameOp]
  refine {
    call := if_pos rfl
    sameProcess := h.sameProcess
    sameOp := rfl
    others := fun other hne => (if_neg hne).trans (h.others other hne)
    valid := h.valid
    names := h.names
    entries := fun hdistributed q e' he' => Or.inr ?_
    loaders := fun p q hloader => ?_
    phase := .returning rfl ⟨hsettled.answer, hsettled.failed,
      fun error herror => absurd herror (hsuccess error)⟩ }
  · simp only [ChainState.setCall] at he'
    by_cases hq : q = queueId
    · rw [hq, CacheStore.set_self] at he'
      obtain rfl := Option.some.inj he'
      exact ⟨value, he, hq ▸ hvalue⟩
    · rw [CacheStore.set_other fun heq => hq (detailsKey_injective heq)] at he'
      rcases h.entries hdistributed q e' he' with ⟨response', details, hphase, hid⟩ | hentry
      · -- the entry that is being overwritten is another queue's
        cases hwrites with
        | populate hphase' =>
          rw [hphase] at hphase'
          simp at hphase'
        | writeThrough hphase' =>
          obtain ⟨-, rfl⟩ := CallPhase.writeThrough.inj (hphase.symm.trans hphase')
          exact absurd hid.symm hq
      · exact hentry
  · obtain ⟨hp, hname, hmemory, -, -⟩ := h.loaders p q hloader
    exact ⟨hp, hname, hmemory, by simp, by simp⟩

/-- The name is known in the process, or the call loads it. -/
theorem CallInv.at_lookup (hphase : c.phase = .lookup) :
    op = .queueName op.queueId ∧ config.inMemory c.process = true ∧ s₀.Untouched s ∧
      c.times.databaseFailed = false :=
  h.phase.at_phase hphase

theorem CallInv.known {name : String} (hphase : c.phase = .lookup)
    (hname : s.names c.process c.op.queueId = some name) (times : CallTimes)
    (htimes : times.databaseFailed = c.times.databaseFailed) :
    CallInv config s₀ id process op
      (s.setCall id { c with phase := .done (.queueName (some name)), times })
      { c with phase := .done (.queueName (some name)), times } := by
  obtain ⟨hop, -, huntouched, hfailed⟩ := h.at_lookup hphase
  refine h.move s.store rfl rfl (fun _ => rfl) (by simp [hphase, CallPhase.writesThrough])
    (Or.inl hphase) (.done rfl ⟨fun _ => ?_, fun htrue => ?_, fun error he => by simp at he⟩)
  · -- the name in the process is the one of the database
    rw [h.sameOp] at hname
    have hanswer := h.read_answer (by rw [hop]; rfl) huntouched.db
    have hsame : op.answer (s.db.details op.queueId) = .queueName (some name) := by
      rw [← h.names _ _ _ hname, hop]
      rfl
    rwa [hsame] at hanswer
  · rw [htimes, hfailed] at htrue
    simp at htrue

theorem CallInv.loads (hphase : c.phase = .lookup) :
    CallInv config s₀ id process op
      ((s.setLoader c.process c.op.queueId (some id)).setCall id
        { c with phase := config.sourcePhase c.op })
      { c with phase := config.sourcePhase c.op } := by
  obtain ⟨hop, hmemory, huntouched, hfailed⟩ := h.at_lookup hphase
  rw [h.sameOp]
  have hsource : config.sourcePhase op =
      if config.distributed then .get else .database (.queueName op.queueId) := by
    rw [hop]
    rfl
  have hphase' : PhaseInv config s₀ op s { c with op, phase := config.sourcePhase op } := by
    rw [hsource]
    by_cases hdistributed : config.distributed = true
    · rw [if_pos hdistributed]
      exact .cache (Or.inl rfl) (by rw [hop]; rfl) hdistributed huntouched hfailed
    · rw [if_neg hdistributed]
      exact .database rfl (Or.inl hop.symm) huntouched hfailed
  refine {
    call := if_pos rfl
    sameProcess := h.sameProcess
    sameOp := rfl
    others := fun other hne => (if_neg hne).trans (h.others other hne)
    valid := h.valid
    names := h.names
    entries := fun hdistributed q e he => ?_
    loaders := fun p q hloader => ?_
    phase := hphase'.mono rfl (.of_eq rfl rfl) }
  · rcases h.entries hdistributed q e he with ⟨response, details, hpending, -⟩ | hentry
    · rw [hphase] at hpending
      simp at hpending
    · exact Or.inr hentry
  · replace hloader : (if p = c.process ∧ q = op.queueId then some id else s.loaders p q) ≠ none :=
      hloader
    have hthis : p = c.process ∧ q = op.queueId := by
      by_contra hother
      rw [if_neg hother] at hloader
      exact (h.loaders p q hloader).2.2.2.1 hphase
    refine ⟨hthis.1.trans h.sameProcess, hthis.2 ▸ hop, h.sameProcess ▸ hmemory, ?_⟩
    show config.sourcePhase op ≠ _ ∧ ∀ response, config.sourcePhase op ≠ _
    rw [hsource]
    split <;> simp

end Awaits

/-- L1 answers what L2 has answered; only a failure is told differently. -/
theorem Settled.outer (h : Settled s₀ s op c response) :
    Settled s₀ s op c (op.outer response) := by
  have hfailed : ∀ error, op.outer response = .failed error → ∃ error', response = .failed error' := by
    intro error he
    cases op <;> cases response <;> simp [MetadataOp.outer] at he ⊢
  refine ⟨fun hsuccess => ?_, fun htrue => ?_, fun error he => ?_⟩
  · have hsame : op.outer response = response := by
      obtain ⟨now, hrun⟩ := h.answer hsuccess
      cases op with
      | queueName queueId =>
        obtain ⟨-, rfl⟩ := Prod.mk.inj hrun
        rfl
      | createQueue | queueDetails | updateQueue => rfl
    rw [hsame]
    exact h.answer hsuccess
  · obtain ⟨error, rfl⟩ := h.failed htrue
    cases op <;> exact ⟨_, rfl⟩
  · obtain ⟨error', he'⟩ := hfailed error he
    exact h.untouched error' he'

theorem CallInv.finishes (h : CallInv config s₀ id process op s c) (h₀ : s₀.db.Valid)
    (hphase : c.phase = .returning response) :
    ∃ c', CallInv config s₀ id process op (s.finish config id c response) c' := by
  obtain ⟨names, loaders, answer, hfinish, hanswer, hnames, hloaders⟩ :=
    finish_eq config s id c response
  have hsettled : Settled s₀ s op c response := h.phase.at_phase hphase
  have hdone : Settled s₀ s op c answer := by
    rcases hanswer with rfl | rfl
    · exact hsettled
    · rw [h.sameOp]
      exact hsettled.outer
  rw [h.sameOp] at hnames hloaders
  refine ⟨{ c with
    phase := .done answer
    times := { c.times with returned := some s.moment } }, ?_⟩
  rw [hfinish]
  refine {
    call := if_pos rfl
    sameProcess := h.sameProcess
    sameOp := h.sameOp
    others := fun other hne => (if_neg hne).trans (h.others other hne)
    valid := h.valid
    names := fun p q name hname => ?_
    entries := fun hdistributed q e he => ?_
    loaders := fun p q hloader => ?_
    phase := .done rfl ⟨hdone.answer, hdone.failed, fun error he => ?_⟩ }
  · rcases hnames p q with hsame | ⟨kept, hremembers, hkept⟩
    · exact h.names p q name (hsame ▸ hname)
    · obtain rfl := Option.some.inj (hkept.symm.trans hname)
      exact hsettled.remembered h₀ hremembers
  · rcases h.entries hdistributed q e he with ⟨response', details, hpending, -⟩ | hentry
    · rw [hphase] at hpending
      simp at hpending
    · exact Or.inr hentry
  · obtain ⟨hold, hnot⟩ := hloaders p q hloader
    obtain ⟨hp, hname, hmemory, -, -⟩ := h.loaders p q hold
    exact absurd ⟨h.sameProcess ▸ hmemory, hp.trans h.sameProcess.symm, hname⟩ hnot
  · -- a failed call has nothing to remember
    refine (hdone.untouched error he).mono rfl ⟨fun p q => ?_, fun _ => Or.inl rfl⟩
    rcases hnames p q with hsame | ⟨kept, hremembers, -⟩
    · exact Or.inl hsame
    · exfalso
      rcases hanswer with rfl | rfl
      · subst he
        cases op <;> simp [MetadataOp.remembers] at hremembers
      · rw [h.sameOp] at he
        cases op <;> cases response <;>
          simp_all [MetadataOp.outer, MetadataOp.remembers]

/-- The `SET NX` of the loading marker touches no details. -/
theorem CallInv.locked (h : CallInv config s₀ id process op s c) (hphase : c.phase = .lock)
    (outcome : AwaitOutcome) :
    ∃ c', CallInv config s₀ id process op (s.lock id c outcome) c' := by
  obtain ⟨hread, hdistributed, huntouched, hfailed⟩ := h.at_cache (by simp [hphase])
  obtain ⟨store, phase, hlock, hstore, hnext⟩ := lock_eq s id c outcome
  have huntouched' : s₀.Untouched { s with store } :=
    huntouched.mono rfl ⟨fun _ _ => Or.inl rfl, fun q => Or.inl (hstore q)⟩
  rw [hlock]
  refine ⟨_, h.move store rfl rfl hstore (by simp [hphase, CallPhase.writesThrough])
    (Or.inr ?_) ?_⟩
  · rcases hnext with rfl | rfl | rfl <;> exact ⟨by simp, by simp⟩
  · rcases hnext with rfl | rfl | rfl
    · exact .cache (by simp) hread hdistributed huntouched' hfailed
    · exact .cache (by simp) hread hdistributed huntouched' hfailed
    · exact .database rfl (Or.inr ⟨hread, by rw [h.sameOp]⟩) huntouched' hfailed

/-- **An await keeps the invariant.** -/
theorem CallInv.await (h : CallInv config s₀ id process op s c) (h₀ : s₀.db.Valid)
    {outcome : AwaitOutcome} (hthrough : c.phase.writesThrough = true → outcome.ok = true)
    (hstep : AwaitStep config s id c outcome s') : ∃ c', CallInv config s₀ id process op s' c' := by
  cases hstep with
  | known hphase hname => exact ⟨_, h.known hphase hname _ rfl⟩
  | joins hphase hname hloader =>
    -- nobody else loads the name
    have hload : s.loaders c.process c.op.queueId ≠ none := by simp [hloader]
    exact absurd hphase (h.loaders _ _ hload).2.2.2.1
  | loads hphase hname hloader => exact ⟨_, h.loads hphase⟩
  | shared hphase => exact absurd hphase h.phase.not_joined
  | queried hqueries hok => exact ⟨_, h.queried hqueries outcome.now _ rfl⟩
  | unavailable hqueries hok =>
    obtain ⟨huntouched, hnot⟩ := h.at_query hqueries
    exact ⟨_, h.unavailable huntouched hnot⟩
  | hit hreads hok hget hvalue =>
    obtain ⟨⟨hread, hdistributed, huntouched, hfailed⟩, hnot, -⟩ := h.at_read hreads
    rw [h.sameOp] at hget ⊢
    obtain ⟨hentry, -⟩ := CacheStore.get_eq_some.mp hget
    refine ⟨_, h.move s.store rfl h.sameOp.symm (fun _ => rfl) hnot
      (Or.inr ⟨by simp, by simp⟩) (.returning rfl (h.settled_read hread huntouched.db ?_ hfailed))⟩
    rcases h.entries hdistributed _ _ hentry with ⟨response, details, hpending, -⟩ | ⟨found, hfound, hv⟩
    · rw [hpending] at hnot
      simp [CallPhase.writesThrough] at hnot
    · obtain rfl := CacheValue.queueDetails.inj (hfound.symm.trans hvalue)
      exact hv
  | missed hreads hok hget =>
    obtain ⟨⟨hread, hdistributed, huntouched, hfailed⟩, hnot, hmissed⟩ := h.at_read hreads
    refine ⟨_, h.move s.store rfl rfl (fun _ => rfl) hnot (Or.inr ?_) ?_⟩
    · rcases hmissed with rfl | rfl <;> exact ⟨by simp, by simp⟩
    · rcases hmissed with rfl | rfl <;>
        exact .cache (by simp) hread hdistributed (huntouched.mono rfl (.of_eq rfl rfl)) hfailed
  | degraded hreads hread =>
    obtain ⟨⟨hread, hdistributed, huntouched, hfailed⟩, hnot, -⟩ := h.at_read hreads
    refine ⟨_, h.move s.store rfl rfl (fun _ => rfl) hnot (Or.inr ⟨by simp, by simp⟩)
      (.database rfl (Or.inr ⟨hread, by rw [h.sameOp]⟩) (huntouched.mono rfl (.of_eq rfl rfl))
        hfailed)⟩
  | locks hphase => exact h.locked hphase outcome
  | wrote hwrites heffect => exact ⟨_, h.wrote hwrites rfl _ rfl⟩
  | notWritten hwrites hok hexecuted =>
    obtain ⟨hvalue, hsuccess, hsettled⟩ := h.at_write hwrites c.times rfl
    have hnot : c.phase.writesThrough = false := by
      by_contra htrue
      have hok' := hthrough (by simpa using htrue)
      rw [hok] at hok'
      simp at hok'
    refine ⟨_, h.move s.store rfl rfl (fun _ => rfl) hnot (Or.inr ⟨by simp, by simp⟩)
      (.returning rfl ?_)⟩
    exact ⟨hsettled.answer, hsettled.failed, hsettled.untouched⟩
  | finishes hphase => exact h.finishes h₀ hphase

/-! ## A whole call -/

theorem CallInv.begin (h : s₀.Coherent config) :
    ∃ c, CallInv config s₀ id process op (s₀.begin config id process op).advance c := by
  have huntouched : s₀.Untouched s₀ := ⟨rfl, fun _ _ => Or.inl rfl, fun _ => Or.inl rfl⟩
  have hsource : ∀ c : MetadataCall, c.phase = config.sourcePhase op →
      c.times.databaseFailed = false → PhaseInv config s₀ op s₀ c := by
    intro c hphase hfailed
    cases op with
    | createQueue | updateQueue => exact .database hphase (Or.inl rfl) huntouched hfailed
    | queueName | queueDetails =>
      by_cases hdistributed : config.distributed = true
      · exact .cache (Or.inl (hphase.trans (if_pos hdistributed))) rfl hdistributed huntouched hfailed
      · exact .database (hphase.trans (if_neg hdistributed)) (Or.inl rfl) huntouched hfailed
  have hfirst : ∀ c : MetadataCall, c.phase = config.firstPhase process op → c.process = process →
      c.times.databaseFailed = false → PhaseInv config s₀ op s₀ c := by
    intro c hphase hprocess hfailed
    cases op with
    | queueName =>
      by_cases hmemory : config.inMemory process = true
      · exact .lookup (hphase.trans (if_pos hmemory)) rfl (hprocess ▸ hmemory) huntouched hfailed
      · exact hsource c (hphase.trans (if_neg hmemory)) hfailed
    | createQueue | queueDetails | updateQueue => exact hsource c hphase hfailed
  exact ⟨_, {
    call := if_pos rfl
    sameProcess := rfl
    sameOp := rfl
    others := fun other hne => if_neg hne
    valid := h.valid
    names := h.names
    entries := fun hdistributed q e he => Or.inr (h.entries hdistributed q e he)
    loaders := fun p q hloader => absurd (h.loaders p q) hloader
    phase := (hfirst _ rfl rfl rfl).mono rfl (.of_eq rfl rfl) }⟩

/-- The invariant holds throughout the call. -/
theorem CallRun.invariant (hrun : CallRun config id process op s₀ s) (h₀ : s₀.Coherent config) :
    ∃ c, CallInv config s₀ id process op s c := by
  refine hrun.2.invariant (I := fun s => ∃ c, CallInv config s₀ id process op s c)
    (CallInv.begin h₀) fun s a s' _ ⟨c, hc⟩ hallowed hstep => ?_
  obtain ⟨s'', hact, rfl⟩ := step_eq_some hstep
  by_cases henvironment : a.environment = true
  · obtain ⟨hdb, hcalls, hloaders, hshrinks⟩ := environment_shrinks henvironment hact
    exact ⟨c, (hc.mono hdb hcalls hloaders hshrinks).advance⟩
  · cases a with
    | await other outcome =>
      obtain ⟨rfl, hthrough⟩ := hallowed
      rw [hc.call] at hthrough
      rw [ChainState.act, hc.call] at hact
      have hok : c.phase.writesThrough = true → outcome.ok = true := by
        intro htrue
        simpa [htrue] using hthrough
      obtain ⟨c', hc'⟩ := hc.await h₀.valid hok (await_cases hact)
      exact ⟨c', hc'.advance⟩
    | start | elapse | evict | evictName => exact absurd hallowed henvironment

/-- When the call has answered, the caches agree with the database again. -/
theorem CallRun.answered (hrun : CallRun config id process op s₀ s) (h₀ : s₀.Coherent config)
    (hanswered : s.Answered id c response) :
    Settled s₀ s op c response ∧ s.Coherent config := by
  obtain ⟨c', hc'⟩ := hrun.invariant h₀
  obtain ⟨hcall, hdone⟩ := hanswered
  obtain rfl := Option.some.inj (hcall.symm.trans hc'.call)
  constructor
  · exact hc'.phase.at_phase hdone
  · refine ⟨hc'.valid, hc'.names, fun hdistributed q e he => ?_, fun other d hd => ?_, fun p q => ?_⟩
    · rcases hc'.entries hdistributed q e he with ⟨response', details, hpending, -⟩ | hentry
      · rw [hdone] at hpending
        simp at hpending
      · exact hentry
    · by_cases hother : other = id
      · obtain rfl := Option.some.inj (hd.symm.trans (hother ▸ hcall))
        exact ⟨response, hdone⟩
      · exact h₀.quiet other d (hc'.others other hother ▸ hd)
    · by_contra hloader
      exact (hc'.loaders p q hloader).2.2.2.2 response hdone

/-- **Between calls the caches agree with the database.** -/
theorem SequentialHistory.coherent (history : SequentialHistory config s) : s.Coherent config := by
  induction history with
  | start hvalid =>
    exact ⟨hvalid, fun _ _ _ hname => by simp [ChainState.start] at hname,
      fun _ _ _ he => by simp [ChainState.start, CacheStore.empty] at he,
      fun _ _ hc => by simp [ChainState.start] at hc, fun _ _ => rfl⟩
  | environment history ha hstep ih =>
    obtain ⟨s'', hact, rfl⟩ := step_eq_some hstep
    obtain ⟨hdb, hcalls, hloaders, hshrinks⟩ := environment_shrinks ha hact
    exact (ih.mono hdb hcalls hloaders hshrinks).mono rfl rfl rfl (.of_eq rfl rfl)
  | call history hrun hanswered ih => exact (hrun.answered ih hanswered).2

/-! ## The refinement -/

/-- A call that nobody else's marker holds up answers. -/
theorem CallInv.answers (hinv : CallInv config s₀ id process op s c) (h₀ : s₀.db.Valid)
    (hmarker : c.phase.remaining < 5 ∨ s.Unmarked c.op.queueId) :
    ∃ s' c' response, Execution (ChainState.step config) (ownStep id) s s' ∧
      s'.Answered id c' response := by
  generalize hn : c.phase.remaining = n
  induction n using Nat.strong_induction_on generalizing s c with
  | _ n ih =>
    by_cases hdone : ∃ response, c.phase = .done response
    · obtain ⟨response, hdone⟩ := hdone
      exact ⟨s, c, response, .refl, hinv.call, hdone⟩
    · have hok : ownStep id s (.await id ⟨true, true, 0⟩) := by
        refine ⟨rfl, ?_⟩
        simp [hinv.call]
      obtain ⟨t, ht⟩ : ∃ t, s.await config id c ⟨true, true, 0⟩ = some t :=
        await_enabled (fun response he => hdone ⟨response, he⟩) fun _ => hinv.phase.not_joined
      obtain ⟨c', hc'⟩ := hinv.await h₀ (fun _ => rfl) (await_cases ht)
      obtain ⟨d, hd, hop, hless, hmarker'⟩ := (await_cases ht).progress hmarker
      obtain rfl := Option.some.inj (hd.symm.trans hc'.call)
      have hstep : s.step config (.await id ⟨true, true, 0⟩) = some t.advance := by
        rw [ChainState.step, ChainState.act, hinv.call]
        exact congrArg (Option.map ChainState.advance) ht
      obtain ⟨s', c'', response, hrun, hanswered⟩ :=
        ih _ (hn ▸ hless) hc'.advance (hop.symm ▸ hmarker') rfl
      exact ⟨s', c'', response, (Execution.step .refl hok hstep).trans hrun, hanswered⟩

/-- **A call can always be completed.**  At the latest it goes on when the loading marker has
    expired. -/
theorem CallRun.completes (hrun : CallRun config id process op s₀ s) (h₀ : s₀.Coherent config) :
    ∃ s' c response, Execution (ChainState.step config) (ownStep id) s s' ∧
      s'.Answered id c response := by
  -- wait until the marker has expired
  obtain ⟨duration, hexpired⟩ : ∃ duration : Nat, ({ s with clock := s.clock + duration } :
      ChainState).Unmarked op.queueId := by
    cases hentry : s.store (loadLockKey op.queueId) with
    | none => exact ⟨0, by simp [ChainState.Unmarked, CacheStore.get, hentry]⟩
    | some e =>
      refine ⟨(e.expiresAt - s.clock).toNat, ?_⟩
      simp only [ChainState.Unmarked, CacheStore.get, hentry, Option.filter_eq_none_iff,
        Option.some.injEq, decide_eq_true_eq]
      rintro _ rfl
      omega
  have hstep : s.step config (.elapse duration) =
      some ({ s with clock := s.clock + duration } : ChainState).advance := rfl
  have hallowed : ownStep id s (.elapse duration) := rfl
  have hwaited := hrun.2.step hallowed hstep
  obtain ⟨c, hinv⟩ := CallRun.invariant ⟨hrun.1, hwaited⟩ h₀
  obtain ⟨s', c', response, hrest, hanswered⟩ :=
    hinv.answers h₀.valid (Or.inr (hinv.sameOp ▸ hexpired))
  exact ⟨s', c', response, (Execution.step .refl hallowed hstep).trans hrest, hanswered⟩

/-- **The cached repository answers as PostgreSQL does.**  After any sequential history a call that
    is answered from a cache, or whose statement is executed, gives PostgreSQL's outcome and leaves
    PostgreSQL's table; a call whose statement is not executed fails; and a failed call has changed
    nothing but for entries that are gone.  A call under way can always be completed. -/
theorem cachedRepository_refines (history : SequentialHistory config s)
    (hrun : CallRun config id process op s s') :
    (∀ c response, s'.Answered id c response →
      (c.times.databaseFailed = false → AsPostgres s s' op response) ∧
      (c.times.databaseFailed = true → ∃ error, response = .failed error) ∧
      ((∃ error, response = .failed error) → s.Untouched s')) ∧
    ∃ s'' c response, Execution (ChainState.step config) (ownStep id) s' s'' ∧
      s''.Answered id c response := by
  have h₀ := history.coherent
  refine ⟨fun c response hanswered => ?_, hrun.completes h₀⟩
  obtain ⟨hsettled, -⟩ := hrun.answered h₀ hanswered
  exact ⟨hsettled.answer, hsettled.failed, fun ⟨error, he⟩ => hsettled.untouched error he⟩

/-- Both caches are there, the names in process 0 only. -/
def bothCaches : CacheConfig := ⟨fun process => process == 0, true⟩

/-- So many awaits of a call, all successful. -/
def awaits (id count : Nat) : List ChainAction := List.replicate count (.await id ⟨true, true, 0⟩)

/-- The call, made in `s`, after so many awaits. -/
def callAfter (s : ChainState) (id process : Nat) (op : MetadataOp) (count : Nat) :
    Option ChainState :=
  runAllowed (ChainState.step bothCaches) (ownStep id) (s.begin bothCaches id process op).advance
    (awaits id count)

/-- Process 1 remembers that there is no queue 1; then process 0 creates it. -/
theorem cachedRepository_refines_createAfterMiss :
    ∃ s s' c c', callAfter (.start .empty) 0 1 (.queueDetails 1) 6 = some s ∧
      s.Answered 0 c (.queueDetails none) ∧
      callAfter s 1 0 (.createQueue (ordersQueue 5 fiveAttempts_inRange)) 3 = some s' ∧
      s'.Answered 1 c' (.createQueue .created) ∧ s'.names 0 1 = some "orders" ∧
      AsPostgres s s' (.createQueue (ordersQueue 5 fiveAttempts_inRange)) (.createQueue .created) := by
  have hrun : ((callAfter (.start .empty) 0 1 (.queueDetails 1) 6).bind fun s =>
      (s.calls 0).bind fun c => (callAfter s 1 0
        (.createQueue (ordersQueue 5 fiveAttempts_inRange)) 3).bind fun s' =>
          (s'.calls 1).map fun c' => ((s.calls 1).isNone, c.phase.response, c'.phase.response,
            c'.times.databaseFailed, s'.names 0 1)) =
      some (true, some (.queueDetails none), some (.createQueue .created), false, some "orders") := by
    decide +kernel
  obtain ⟨s, hs, hrun⟩ := Option.bind_eq_some_iff.mp hrun
  obtain ⟨c, hc, hrun⟩ := Option.bind_eq_some_iff.mp hrun
  obtain ⟨s', hs', hrun⟩ := Option.bind_eq_some_iff.mp hrun
  obtain ⟨c', hc', hrun⟩ := Option.map_eq_some_iff.mp hrun
  simp only [Prod.mk.injEq] at hrun
  obtain ⟨hnew, hmissing, hcreated, hworking, hname⟩ := hrun
  have hanswered : s.Answered 0 c (.queueDetails none) := ⟨hc, CallPhase.response_eq_some.mp hmissing⟩
  have hanswered' : s'.Answered 1 c' (.createQueue .created) :=
    ⟨hc', CallPhase.response_eq_some.mp hcreated⟩
  have hhistory : SequentialHistory bothCaches s :=
    .call (.start Database.empty_valid) ⟨rfl, execution_of_runAllowed hs⟩ hanswered
  refine ⟨s, s', c, c', hs, hanswered, hs', hanswered', hname, ?_⟩
  exact ((cachedRepository_refines hhistory ⟨Option.isNone_iff_eq_none.mp hnew,
    execution_of_runAllowed hs'⟩).1 c' _ hanswered').1 hworking

end Retsu
