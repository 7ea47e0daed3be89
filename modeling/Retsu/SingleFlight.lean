/-
  Single flight: of the calls that miss an entry of the shared cache, one loads it.

  A call that has missed sets the loading marker, and looks again before it loads.  The marker is
  never taken away; it expires.  As long as every load ends before the marker of its call has
  expired, no two loads are under way at once, and a load only begins when the entry of the one
  before has expired.
-/
import Retsu.CacheStaleness
import Retsu.LiveRows

namespace Retsu

open Relational Concurrency

variable {config : CacheConfig} {db : Database} {store : CacheStore} {queueId : Uuid}

/-! ## Loads and their markers -/

/-- The call loads the details: from its second miss to the end of its `SET`. -/
def CallPhase.loading : CallPhase → Bool
  | load | populate _ => true
  | _ => false

/-- The calls on the repository, and when the `SET NX` of each of them succeeded. -/
structure FlightState where
  chain : ChainState
  lockedAt : Nat → Option Int

/-- The call whose `SET NX` the action is, when it succeeds. -/
def ChainState.acquires (s : ChainState) (a : ChainAction) : Option Nat :=
  match a with
  | .await id outcome => do
    let c ← s.calls id
    match c.phase with
    | .lock =>
      if outcome.ok ∧ (s.store.get s.clock (loadLockKey c.op.queueId)).isNone then some id else none
    | _ => none
  | _ => none

namespace FlightState

/-- What the cache has when the calls begin may be from before. -/
def start (db : Database) (store : CacheStore) : FlightState where
  chain := { ChainState.start db with store }
  lockedAt _ := none

def step (config : CacheConfig) (f : FlightState) (a : ChainAction) : Option FlightState :=
  (f.chain.step config a).map fun chain =>
    { chain
      lockedAt := fun id =>
        if f.chain.acquires a = some id then some f.chain.clock else f.lockedAt id }

/-- The marker of every call that loads has time left. -/
def InTime (f : FlightState) : Prop :=
  ∀ id c, f.chain.calls id = some c → c.phase.loading = true →
    ∃ t, f.lockedAt id = some t ∧ f.chain.clock < t + loadLockTtl

/-- Only calls of `queue_details` for the queue are made; nothing fails, entries go only when they
    expire, and every load ends in time. -/
def Flies (config : CacheConfig) (queueId : Uuid) (f : FlightState) (a : ChainAction) : Prop :=
  (match a with
    | .start _ _ op => op = .queueDetails queueId
    | .await _ outcome => outcome.ok = true
    | .elapse _ => True
    | .evict _ | .evictName _ _ => False) ∧
  ∀ f', f.step config a = some f' → f'.InTime

end FlightState

/-! ## What the cache has -/

/-- The cache before the calls: what it has under the queue's key are details. -/
structure DetailsStore (queueId : Uuid) where
  store : CacheStore
  details : ∀ e, store (detailsKey queueId) = some e → ∃ value, e.value = .queueDetails value

/-- The value that is cached for details. -/
def CachedQueueDetails.ofDetails : Option QueueDetails → CachedQueueDetails
  | some details => .found details
  | none => .missing

@[simp] theorem CachedQueueDetails.intoDetails_ofDetails (details : Option QueueDetails) :
    (ofDetails details).intoDetails = details := by
  cases details <;> rfl

theorem afterLoad_queueDetails (details : Option QueueDetails) :
    afterLoad (.queueDetails details) = .populate (.ofDetails details) := by
  cases details <;> rfl

/-- How long the entry of a load lives. -/
def Database.entryTtl (db : Database) (queueId : Uuid) : Int :=
  (CachedQueueDetails.ofDetails (db.details queueId)).ttl

/-- The entry of a load, whose `SET` was at `set`. -/
def Database.loadedEntry (db : Database) (queueId : Uuid) (id : Nat) (set : Moment) : CacheEntry :=
  ⟨.queueDetails (.ofDetails (db.details queueId)), set.clock + db.entryTtl queueId, id⟩

/-- The entry is from before the calls, or of a load whose `SET` came before the step `bound`. -/
def ChainState.Written (db : Database) (store : CacheStore) (queueId : Uuid) (s : ChainState)
    (e : CacheEntry) (bound : Nat) : Prop :=
  store (detailsKey queueId) = some e ∨
    ∃ c set, s.calls e.setBy = some c ∧ c.times.cached = some set ∧ set.step < bound ∧
      e = db.loadedEntry queueId e.setBy set

/-- How a call has come to its answer: by a load of its own, or from an entry that had not
    expired. -/
inductive ChainState.Flown (db : Database) (store : CacheStore) (queueId : Uuid) (s : ChainState)
    (c : MetadataCall) (response : MetadataResponse) : Prop
  | loaded {statement set : Moment} (hdatabase : c.times.database = some statement)
      (hcached : c.times.cached = some set) (hstep : statement.step < set.step)
      (hresponse : response = .queueDetails (db.details queueId))
  | shared {get : Moment} {e : CacheEntry} {value : CachedQueueDetails} (huntried : c.Untried)
      (hhit : c.times.hit = some (get, e.setBy)) (hvalue : e.value = .queueDetails value)
      (hlive : get.clock < e.expiresAt) (hwritten : s.Written db store queueId e get.step)
      (hresponse : response = .queueDetails value.intoDetails)

/-- What the await a call is at says of its past. -/
def ChainState.FlightAt (db : Database) (store : CacheStore) (queueId : Uuid) (s : ChainState)
    (c : MetadataCall) : Prop :=
  match c.phase with
  | .get | .lock | .recheck | .waiting | .load => c.Untried
  | .populate value => value = .ofDetails (db.details queueId) ∧ c.times.cached = none ∧
      c.times.database ≠ none
  | .returning response | .done response => s.Flown db store queueId c response
  | _ => False

/-- The invariant of the calls. -/
structure FlightState.Inv (db : Database) (store : CacheStore) (queueId : Uuid) (f : FlightState) :
    Prop where
  source : f.chain.db = db
  ops : ∀ id c, f.chain.calls id = some c → c.op = .queueDetails queueId
  phases : ∀ id c, f.chain.calls id = some c → f.chain.FlightAt db store queueId c
  entry : ∀ e, f.chain.store (detailsKey queueId) = some e →
    f.chain.Written db store queueId e (f.chain.time + 1)
  /-- The entry of a load stays until it expires. -/
  live : ∀ id c set, f.chain.calls id = some c → c.times.cached = some set →
    f.chain.clock < set.clock + db.entryTtl queueId →
    f.chain.store (detailsKey queueId) = some (db.loadedEntry queueId id set)
  /-- So does the marker of a call. -/
  marker : ∀ id t, f.lockedAt id = some t → f.chain.clock < t + loadLockTtl →
    f.chain.store (loadLockKey queueId) = some ⟨.loadLock, t + loadLockTtl, id⟩
  inTime : f.InTime
  /-- While a call loads there is no entry. -/
  quiet : ∀ id c, f.chain.calls id = some c → c.phase.loading = true →
    f.chain.store.get f.chain.clock (detailsKey queueId) = none
  database : ∀ id c m, f.chain.calls id = some c → c.times.database = some m →
    m.step ≤ f.chain.time
  cached : ∀ id c set, f.chain.calls id = some c → c.times.cached = some set →
    set.step ≤ f.chain.time ∧ set.clock ≤ f.chain.clock
  /-- Of two loads one begins after the entry of the other has expired. -/
  successive : ∀ i c m j d m', f.chain.calls i = some c → c.times.database = some m →
    f.chain.calls j = some d → d.times.database = some m' → m.step < m'.step →
    ∃ set, c.times.cached = some set ∧ m.step < set.step ∧ set.step < m'.step ∧
      set.clock + db.entryTtl queueId ≤ m'.clock
  distinct : ∀ i c m j d m', f.chain.calls i = some c → c.times.database = some m →
    f.chain.calls j = some d → d.times.database = some m' → m.step = m'.step → i = j

variable {f f' : FlightState} {id : Nat} {c c' : MetadataCall}

/-- **No two calls load at once.** -/
theorem FlightState.Inv.loading_unique (h : f.Inv db store queueId) {i j : Nat}
    {c d : MetadataCall} (hi : f.chain.calls i = some c) (hc : c.phase.loading = true)
    (hj : f.chain.calls j = some d) (hd : d.phase.loading = true) : i = j := by
  obtain ⟨t, ht, htime⟩ := h.inTime i c hi hc
  obtain ⟨t', ht', htime'⟩ := h.inTime j d hj hd
  -- the key has one marker
  have hmarker := h.marker i t ht htime
  rw [h.marker j t' ht' htime'] at hmarker
  exact (congrArg CacheEntry.setBy (Option.some.inj hmarker)).symm

/-- Whatever has been loaded has expired while another call loads. -/
theorem FlightState.Inv.expired (h : f.Inv db store queueId) (hc : f.chain.calls id = some c)
    (hloading : c.phase.loading = true) {i : Nat} {d : MetadataCall} {set : Moment}
    (hi : f.chain.calls i = some d) (hset : d.times.cached = some set) :
    set.clock + db.entryTtl queueId ≤ f.chain.clock := by
  by_contra hlive
  have hstore := h.live i d set hi hset (by omega)
  have hget : f.chain.store.get f.chain.clock (detailsKey queueId) =
      some (db.loadedEntry queueId i set) :=
    CacheStore.get_eq_some.mpr ⟨hstore, by show f.chain.clock < _; exact not_le.mp hlive⟩
  rw [h.quiet id c hc hloading] at hget
  simp at hget

theorem FlightState.start_inv (db : Database) (store : CacheStore) (queueId : Uuid) :
    (start db store).Inv db store queueId where
  source := rfl
  ops id c hc := by simp [start, ChainState.start] at hc
  phases id c hc := by simp [start, ChainState.start] at hc
  entry e he := Or.inl he
  live id c set hc := by simp [start, ChainState.start] at hc
  marker id t ht := by simp [start] at ht
  inTime id c hc := by simp [start, ChainState.start] at hc
  quiet id c hc := by simp [start, ChainState.start] at hc
  database id c m hc := by simp [start, ChainState.start] at hc
  cached id c set hc := by simp [start, ChainState.start] at hc
  successive i c m j d m' hc := by simp [start, ChainState.start] at hc
  distinct i c m j d m' hc := by simp [start, ChainState.start] at hc

/-! ## What a step keeps -/

/-- One call has gone on. -/
structure FlightState.Moves (f f' : FlightState) (id : Nat) (c c' : MetadataCall) : Prop where
  call : f.chain.calls id = some c
  calls : ∀ i, f'.chain.calls i = if i = id then some c' else f.chain.calls i
  recorded : c.Recorded c'
  db : f'.chain.db = f.chain.db
  clock : f'.chain.clock = f.chain.clock
  time : f'.chain.time = f.chain.time + 1

/-- The calls afterwards: the one that has moved, and the others. -/
theorem FlightState.Moves.cases (h : f.Moves f' id c c') {i : Nat} {d : MetadataCall}
    (hd : f'.chain.calls i = some d) :
    (i = id ∧ d = c') ∨ (i ≠ id ∧ f.chain.calls i = some d) := by
  rw [h.calls] at hd
  split at hd
  · rename_i hi
    exact Or.inl ⟨hi, (Option.some.inj hd).symm⟩
  · rename_i hi
    exact Or.inr ⟨hi, hd⟩

theorem FlightState.Moves.kept (h : f.Moves f' id c c') {i : Nat} {d : MetadataCall}
    (hd : f.chain.calls i = some d) : ∃ d', f'.chain.calls i = some d' ∧ d.Recorded d' := by
  by_cases hi : i = id
  · subst hi
    rw [h.call] at hd
    obtain rfl := Option.some.inj hd
    exact ⟨c', by rw [h.calls, if_pos rfl], h.recorded⟩
  · exact ⟨d, by rw [h.calls, if_neg hi, hd], .refl d⟩

theorem ChainState.Written.mono {s s' : ChainState} {e : CacheEntry} {bound bound' : Nat}
    (h : s.Written db store queueId e bound)
    (hkept : ∀ i d, s.calls i = some d → ∃ d', s'.calls i = some d' ∧ d.Recorded d')
    (hle : bound ≤ bound') : s'.Written db store queueId e bound' := by
  rcases h with h | ⟨d, set, hd, hset, hstep, he⟩
  · exact Or.inl h
  · obtain ⟨d', hd', hrecorded⟩ := hkept _ d hd
    exact Or.inr ⟨d', set, hd', hrecorded.cached _ hset, by omega, he⟩

/-- What a call has answered does not depend on what comes after. -/
theorem ChainState.FlightAt.mono {s s' : ChainState} (h : s.FlightAt db store queueId c)
    (hkept : ∀ i d, s.calls i = some d → ∃ d', s'.calls i = some d' ∧ d.Recorded d') :
    s'.FlightAt db store queueId c := by
  have hflown : ∀ response, s.Flown db store queueId c response →
      s'.Flown db store queueId c response := by
    intro response hflown
    cases hflown with
    | loaded hdatabase hcached hstep hresponse =>
      exact .loaded hdatabase hcached hstep hresponse
    | shared huntried hhit hvalue hlive hwritten hresponse =>
      exact .shared huntried hhit hvalue hlive (hwritten.mono hkept le_rfl) hresponse
  unfold ChainState.FlightAt at h ⊢
  split at h
  all_goals first | exact h | exact hflown _ h

/-! The parts of the invariant that a step keeps when it adds no statement, or no entry. -/

/-- Every statement of a load is from before, and so is the entry that followed on it. -/
def FlightState.NoQuery (f f' : FlightState) : Prop :=
  ∀ i d m, f'.chain.calls i = some d → d.times.database = some m →
    ∃ d₀, f.chain.calls i = some d₀ ∧ d₀.times.database = some m ∧
      ∀ set, d₀.times.cached = some set → d.times.cached = some set

/-- Every `SET` of a load is from before. -/
def FlightState.NoSet (f f' : FlightState) : Prop :=
  ∀ i d set, f'.chain.calls i = some d → d.times.cached = some set →
    ∃ d₀, f.chain.calls i = some d₀ ∧ d₀.times.cached = some set

section Parts

variable {i j : Nat} {d e : MetadataCall} {m m' set : Moment}

theorem FlightState.Inv.database_noQuery (h : f.Inv db store queueId) (hno : f.NoQuery f')
    (htime : f'.chain.time = f.chain.time + 1) (hd : f'.chain.calls i = some d)
    (hm : d.times.database = some m) : m.step ≤ f'.chain.time := by
  obtain ⟨d₀, hd₀, hm₀, -⟩ := hno i d m hd hm
  have := h.database i d₀ m hd₀ hm₀
  omega

theorem FlightState.Inv.successive_noQuery (h : f.Inv db store queueId) (hno : f.NoQuery f')
    (hd : f'.chain.calls i = some d) (hm : d.times.database = some m)
    (he : f'.chain.calls j = some e) (hm' : e.times.database = some m') (hlt : m.step < m'.step) :
    ∃ set, d.times.cached = some set ∧ m.step < set.step ∧ set.step < m'.step ∧
      set.clock + db.entryTtl queueId ≤ m'.clock := by
  obtain ⟨d₀, hd₀, hm₀, hkept⟩ := hno i d m hd hm
  obtain ⟨e₀, he₀, hm₀', -⟩ := hno j e m' he hm'
  obtain ⟨set, hset, hrest⟩ := h.successive i d₀ m j e₀ m' hd₀ hm₀ he₀ hm₀' hlt
  exact ⟨set, hkept set hset, hrest⟩

theorem FlightState.Inv.distinct_noQuery (h : f.Inv db store queueId) (hno : f.NoQuery f')
    (hd : f'.chain.calls i = some d) (hm : d.times.database = some m)
    (he : f'.chain.calls j = some e) (hm' : e.times.database = some m') (heq : m.step = m'.step) :
    i = j := by
  obtain ⟨d₀, hd₀, hm₀, -⟩ := hno i d m hd hm
  obtain ⟨e₀, he₀, hm₀', -⟩ := hno j e m' he hm'
  exact h.distinct i d₀ m j e₀ m' hd₀ hm₀ he₀ hm₀' heq

theorem FlightState.Inv.live_noSet (h : f.Inv db store queueId) (hno : f.NoSet f')
    (hstore : f'.chain.store (detailsKey queueId) = f.chain.store (detailsKey queueId))
    (hclock : f.chain.clock ≤ f'.chain.clock) (hd : f'.chain.calls i = some d)
    (hset : d.times.cached = some set) (hlive : f'.chain.clock < set.clock + db.entryTtl queueId) :
    f'.chain.store (detailsKey queueId) = some (db.loadedEntry queueId i set) := by
  obtain ⟨d₀, hd₀, hset₀⟩ := hno i d set hd hset
  rw [hstore]
  exact h.live i d₀ set hd₀ hset₀ (by omega)

theorem FlightState.Inv.cached_noSet (h : f.Inv db store queueId) (hno : f.NoSet f')
    (hclock : f.chain.clock ≤ f'.chain.clock) (htime : f'.chain.time = f.chain.time + 1)
    (hd : f'.chain.calls i = some d) (hset : d.times.cached = some set) :
    set.step ≤ f'.chain.time ∧ set.clock ≤ f'.chain.clock := by
  obtain ⟨d₀, hd₀, hset₀⟩ := hno i d set hd hset
  have := h.cached i d₀ set hd₀ hset₀
  omega

theorem FlightState.Moves.ops (hmoves : f.Moves f' id c c') (h : f.Inv db store queueId)
    (hd : f'.chain.calls i = some d) : d.op = .queueDetails queueId := by
  rcases hmoves.cases hd with ⟨rfl, rfl⟩ | ⟨-, hd⟩
  · rw [hmoves.recorded.op]
    exact h.ops _ c hmoves.call
  · exact h.ops i d hd

theorem FlightState.Moves.phases (hmoves : f.Moves f' id c c') (h : f.Inv db store queueId)
    (hat : f'.chain.FlightAt db store queueId c') (hd : f'.chain.calls i = some d) :
    f'.chain.FlightAt db store queueId d := by
  rcases hmoves.cases hd with ⟨rfl, rfl⟩ | ⟨-, hd⟩
  · exact hat
  · exact (h.phases i d hd).mono fun _ _ => hmoves.kept

theorem FlightState.Moves.entry (hmoves : f.Moves f' id c c') (h : f.Inv db store queueId)
    (hstore : f'.chain.store (detailsKey queueId) = f.chain.store (detailsKey queueId))
    {e : CacheEntry} (he : f'.chain.store (detailsKey queueId) = some e) :
    f'.chain.Written db store queueId e (f'.chain.time + 1) := by
  rw [hstore] at he
  rw [hmoves.time]
  exact (h.entry e he).mono (fun _ _ => hmoves.kept) (Nat.le_succ _)

/-- The call that moves has not executed a statement. -/
theorem FlightState.Moves.noQuery (hmoves : f.Moves f' id c c')
    (hdatabase : c'.times.database = c.times.database) : f.NoQuery f' := by
  intro i d m hd hm
  rcases hmoves.cases hd with ⟨rfl, rfl⟩ | ⟨-, hd⟩
  · exact ⟨c, hmoves.call, hdatabase ▸ hm, hmoves.recorded.cached⟩
  · exact ⟨d, hd, hm, fun _ hset => hset⟩

/-- The call that moves has not set an entry. -/
theorem FlightState.Moves.noSet (hmoves : f.Moves f' id c c')
    (hcached : c'.times.cached = c.times.cached) : f.NoSet f' := by
  intro i d set hd hset
  rcases hmoves.cases hd with ⟨rfl, rfl⟩ | ⟨-, hd⟩
  · exact ⟨c, hmoves.call, hcached ▸ hset⟩
  · exact ⟨d, hd, hset⟩

end Parts

/-- A call goes on, and neither loads nor stores anything. -/
theorem FlightState.Inv.goOn (h : f.Inv db store queueId) (hmoves : f.Moves f' id c c')
    (hdatabase : c'.times.database = c.times.database) (hcached : c'.times.cached = c.times.cached)
    (hstore : f'.chain.store (detailsKey queueId) = f.chain.store (detailsKey queueId))
    (hmarker : ∀ i t, f'.lockedAt i = some t → f'.chain.clock < t + loadLockTtl →
      f'.chain.store (loadLockKey queueId) = some ⟨.loadLock, t + loadLockTtl, i⟩)
    (hat : f'.chain.FlightAt db store queueId c')
    (hquiet : c'.phase.loading = true →
      f.chain.store.get f.chain.clock (detailsKey queueId) = none)
    (hinTime : f'.InTime) : f'.Inv db store queueId := by
  have hget : f'.chain.store.get f'.chain.clock (detailsKey queueId) =
      f.chain.store.get f.chain.clock (detailsKey queueId) := by
    rw [CacheStore.get, CacheStore.get, hstore, hmoves.clock]
  have hnoQuery := hmoves.noQuery hdatabase
  have hnoSet := hmoves.noSet hcached
  have hclock := hmoves.clock.ge
  refine ⟨hmoves.db.trans h.source, fun i d => hmoves.ops h, fun i d => hmoves.phases h hat,
    fun e => hmoves.entry h hstore, fun i d set => h.live_noSet hnoSet hstore hclock, hmarker,
    hinTime, ?_, fun i d m => h.database_noQuery hnoQuery hmoves.time,
    fun i d set => h.cached_noSet hnoSet hclock hmoves.time,
    fun i d m j e m' => h.successive_noQuery hnoQuery,
    fun i d m j e m' => h.distinct_noQuery hnoQuery⟩
  intro i d hd hloading
  rw [hget]
  rcases hmoves.cases hd with ⟨rfl, rfl⟩ | ⟨-, hd⟩
  · exact hquiet hloading
  · exact h.quiet i d hd hloading

/-- A call whose statement has been executed still loads, or has set its entry. -/
theorem FlightState.Inv.of_database (h : f.Inv db store queueId) (hc : f.chain.calls id = some c)
    {m : Moment} (hm : c.times.database = some m) :
    c.phase.loading = true ∨
      ∃ set, c.times.cached = some set ∧ m.step < set.step ∧ set.step ≤ f.chain.time := by
  have hat := h.phases id c hc
  have huntried : ¬c.Untried := by
    intro huntried
    rw [huntried.1] at hm
    simp at hm
  have hflown : ∀ response, f.chain.Flown db store queueId c response →
      ∃ set, c.times.cached = some set ∧ m.step < set.step ∧ set.step ≤ f.chain.time := by
    intro response hflown
    cases hflown with
    | @loaded statement set hdatabase hcached hstep hresponse =>
      obtain rfl := Option.some.inj (hm.symm.trans hdatabase)
      exact ⟨set, hcached, hstep, (h.cached id c set hc hcached).1⟩
    | shared hnone => exact absurd hnone huntried
  unfold ChainState.FlightAt at hat
  split at hat
  · exact absurd hat huntried
  · exact absurd hat huntried
  · exact absurd hat huntried
  · exact absurd hat huntried
  · exact absurd hat huntried
  · rename_i value hphase
    exact Or.inl (by rw [hphase]; rfl)
  · exact Or.inr (hflown _ hat)
  · exact Or.inr (hflown _ hat)
  · exact hat.elim

/-- The statement of a load. -/
theorem FlightState.Inv.queried (h : f.Inv db store queueId) (hmoves : f.Moves f' id c c')
    (hphase : c.phase = .load) (hphase' : c'.phase = .populate (.ofDetails (db.details queueId)))
    (hdatabase : c'.times.database = some f.chain.moment)
    (hcached : c'.times.cached = c.times.cached) (hstore : f'.chain.store = f.chain.store)
    (hlocked : f'.lockedAt = f.lockedAt) (hinTime : f'.InTime) : f'.Inv db store queueId := by
  have hat : c.Untried := by
    have hat := h.phases id c hmoves.call
    unfold ChainState.FlightAt at hat
    rwa [hphase] at hat
  have hloading : c.phase.loading = true := by rw [hphase]; rfl
  have hstep : f.chain.moment.step = f.chain.time + 1 := rfl
  have hat' : f'.chain.FlightAt db store queueId c' := by
    unfold ChainState.FlightAt
    rw [hphase']
    exact ⟨rfl, hcached.trans hat.2, by rw [hdatabase]; simp⟩
  have hsame : f'.chain.store (detailsKey queueId) = f.chain.store (detailsKey queueId) := by
    rw [hstore]
  have hnoSet := hmoves.noSet hcached
  have hclock := hmoves.clock.ge
  refine ⟨hmoves.db.trans h.source, fun i d => hmoves.ops h, fun i d => hmoves.phases h hat',
    fun e => hmoves.entry h hsame, fun i d set => h.live_noSet hnoSet hsame hclock, ?_, hinTime,
    ?_, ?_, fun i d set => h.cached_noSet hnoSet hclock hmoves.time, ?_, ?_⟩
  · rw [hlocked, hstore, hmoves.clock]
    exact h.marker
  · intro i d hd hd'
    rw [hstore, hmoves.clock]
    exact h.quiet id c hmoves.call hloading
  · intro i d m hd hm
    rw [hmoves.time]
    rcases hmoves.cases hd with ⟨rfl, rfl⟩ | ⟨-, hd⟩
    · rw [hdatabase] at hm
      obtain rfl := Option.some.inj hm
      exact le_rfl
    · have := h.database i d m hd hm
      omega
  · intro i d m j e m' hd hm he hm' hlt
    rcases hmoves.cases hd with ⟨rfl, rfl⟩ | ⟨hne, hd⟩
    · -- no other statement is later than this one
      rw [hdatabase] at hm
      obtain rfl := Option.some.inj hm
      rcases hmoves.cases he with ⟨-, rfl⟩ | ⟨-, he⟩
      · rw [hdatabase] at hm'
        obtain rfl := Option.some.inj hm'
        omega
      · have := h.database j e m' he hm'
        omega
    · rcases hmoves.cases he with ⟨rfl, rfl⟩ | ⟨-, he⟩
      · rw [hdatabase] at hm'
        obtain rfl := Option.some.inj hm'
        rcases h.of_database hd hm with hother | ⟨set, hset, hbefore, hafter⟩
        · exact absurd (h.loading_unique hd hother hmoves.call hloading) hne
        · exact ⟨set, hset, hbefore, by omega, h.expired hmoves.call hloading hd hset⟩
      · exact h.successive i d m j e m' hd hm he hm' hlt
  · intro i d m j e m' hd hm he hm' heq
    rcases hmoves.cases hd with ⟨rfl, rfl⟩ | ⟨-, hd⟩ <;>
      rcases hmoves.cases he with ⟨rfl, rfl⟩ | ⟨-, he⟩
    · rfl
    · rw [hdatabase] at hm
      obtain rfl := Option.some.inj hm
      have := h.database j e m' he hm'
      omega
    · rw [hdatabase] at hm'
      obtain rfl := Option.some.inj hm'
      have := h.database i d m hd hm
      omega
    · exact h.distinct i d m j e m' hd hm he hm' heq

/-- The `SET` of a load. -/
theorem FlightState.Inv.wrote (h : f.Inv db store queueId) (hmoves : f.Moves f' id c c')
    {value : CachedQueueDetails} (hphase : c.phase = .populate value)
    (hphase' : c'.phase = .returning (.queueDetails value.intoDetails))
    (hdatabase : c'.times.database = c.times.database)
    (hcached : c'.times.cached = some f.chain.moment)
    (hstore : f'.chain.store = f.chain.store.set (detailsKey queueId)
      ⟨.queueDetails value, f.chain.clock + value.ttl, id⟩)
    (hlocked : f'.lockedAt = f.lockedAt) (hinTime : f'.InTime) : f'.Inv db store queueId := by
  obtain ⟨hvalue, hnone, hsome⟩ : value = .ofDetails (db.details queueId) ∧
      c.times.cached = none ∧ c.times.database ≠ none := by
    have hat := h.phases id c hmoves.call
    unfold ChainState.FlightAt at hat
    rwa [hphase] at hat
  obtain ⟨m₀, hm₀⟩ := Option.ne_none_iff_exists'.mp hsome
  have hloading : c.phase.loading = true := by rw [hphase]; rfl
  have hloading' : c'.phase.loading = false := by rw [hphase']; rfl
  have hentry : f'.chain.store (detailsKey queueId) =
      some (db.loadedEntry queueId id f.chain.moment) := by
    rw [hstore, CacheStore.set_self, hvalue]
    rfl
  have hat' : f'.chain.FlightAt db store queueId c' := by
    unfold ChainState.FlightAt
    rw [hphase']
    refine .loaded (hdatabase.trans hm₀) hcached ?_ ?_
    · exact Nat.lt_succ_of_le (h.database _ c m₀ hmoves.call hm₀)
    · rw [hvalue, CachedQueueDetails.intoDetails_ofDetails]
  have hnoQuery := hmoves.noQuery hdatabase
  refine ⟨hmoves.db.trans h.source, fun i d => hmoves.ops h, fun i d => hmoves.phases h hat', ?_,
    ?_, ?_, hinTime, ?_, fun i d m => h.database_noQuery hnoQuery hmoves.time, ?_,
    fun i d m j e m' => h.successive_noQuery hnoQuery,
    fun i d m j e m' => h.distinct_noQuery hnoQuery⟩
  · intro e he
    rw [hentry] at he
    obtain rfl := Option.some.inj he
    refine Or.inr ⟨c', f.chain.moment, ?_, hcached, ?_, rfl⟩
    · show f'.chain.calls id = _
      rw [hmoves.calls, if_pos rfl]
    · rw [hmoves.time]
      exact Nat.lt_succ_self _
  · intro i d set hd hset hlive
    rcases hmoves.cases hd with ⟨rfl, rfl⟩ | ⟨-, hd⟩
    · rw [hcached] at hset
      obtain rfl := Option.some.inj hset
      exact hentry
    · have := h.expired hmoves.call hloading hd hset
      rw [hmoves.clock] at hlive
      omega
  · intro i t ht htime
    rw [hstore, CacheStore.set_other (detailsKey_ne_loadLockKey queueId queueId).symm]
    rw [hlocked] at ht
    rw [hmoves.clock] at htime
    exact h.marker i t ht htime
  · intro i d hd hd'
    rcases hmoves.cases hd with ⟨rfl, rfl⟩ | ⟨hne, hd⟩
    · rw [hloading'] at hd'
      simp at hd'
    · exact absurd (h.loading_unique hd hd' hmoves.call hloading) hne
  · intro i d set hd hset
    rw [hmoves.time, hmoves.clock]
    rcases hmoves.cases hd with ⟨rfl, rfl⟩ | ⟨-, hd⟩
    · rw [hcached] at hset
      obtain rfl := Option.some.inj hset
      exact ⟨le_rfl, le_rfl⟩
    · have := h.cached i d set hd hset
      omega

theorem CacheStore.get_later {store : CacheStore} {clock clock' : Int} {key : String}
    (h : store.get clock key = none) (hle : clock ≤ clock') : store.get clock' key = none := by
  by_contra hsome
  obtain ⟨e, he⟩ := Option.ne_none_iff_exists'.mp hsome
  obtain ⟨hstore, hlive⟩ := CacheStore.get_eq_some.mp he
  have hget := CacheStore.get_eq_some.mpr ⟨hstore, lt_of_le_of_lt hle hlive⟩
  rw [h] at hget
  simp at hget

/-- Time passes, or a call begins. -/
theorem FlightState.Inv.later (h : f.Inv db store queueId) (hdb : f'.chain.db = f.chain.db)
    (hstore : f'.chain.store = f.chain.store) (hlocked : f'.lockedAt = f.lockedAt)
    (hclock : f.chain.clock ≤ f'.chain.clock) (htime : f'.chain.time = f.chain.time + 1)
    (hkept : ∀ i d, f.chain.calls i = some d → f'.chain.calls i = some d)
    (hcalls : ∀ i d, f'.chain.calls i = some d → f.chain.calls i = some d ∨
      d.op = .queueDetails queueId ∧ d.phase = .get ∧ d.Untried)
    (hinTime : f'.InTime) : f'.Inv db store queueId := by
  have hstill : ∀ i d, f.chain.calls i = some d →
      ∃ d', f'.chain.calls i = some d' ∧ d.Recorded d' := fun i d hd =>
    ⟨d, hkept i d hd, .refl d⟩
  have hnoQuery : f.NoQuery f' := by
    intro i d m hd hm
    refine ⟨d, (hcalls i d hd).resolve_right fun hnew => ?_, hm, fun _ hset => hset⟩
    rw [hnew.2.2.1] at hm
    simp at hm
  have hnoSet : f.NoSet f' := by
    intro i d set hd hset
    refine ⟨d, (hcalls i d hd).resolve_right fun hnew => ?_, hset⟩
    rw [hnew.2.2.2] at hset
    simp at hset
  have hsame : f'.chain.store (detailsKey queueId) = f.chain.store (detailsKey queueId) := by
    rw [hstore]
  refine ⟨hdb.trans h.source, ?_, ?_, ?_, fun i d set => h.live_noSet hnoSet hsame hclock, ?_,
    hinTime, ?_, fun i d m => h.database_noQuery hnoQuery htime,
    fun i d set => h.cached_noSet hnoSet hclock htime,
    fun i d m j e m' => h.successive_noQuery hnoQuery,
    fun i d m j e m' => h.distinct_noQuery hnoQuery⟩
  · intro i d hd
    rcases hcalls i d hd with hd | ⟨hop, -⟩
    · exact h.ops i d hd
    · exact hop
  · intro i d hd
    rcases hcalls i d hd with hd | ⟨-, hphase, huntried⟩
    · exact (h.phases i d hd).mono hstill
    · unfold ChainState.FlightAt
      rw [hphase]
      exact huntried
  · intro e he
    rw [hstore] at he
    rw [htime]
    exact (h.entry e he).mono hstill (Nat.le_succ _)
  · intro i t ht hlive
    rw [hstore]
    exact h.marker i t (hlocked ▸ ht) (by omega)
  · intro i d hd hloading
    rcases hcalls i d hd with hd | ⟨-, hphase, -⟩
    · rw [hstore]
      exact CacheStore.get_later (h.quiet i d hd hloading) hclock
    · rw [hphase] at hloading
      simp [CallPhase.loading] at hloading

/-! ## The steps -/

variable {outcome : AwaitOutcome} {t : ChainState} {lockedAt : Nat → Option Int}

theorem ChainState.acquires_of_phase {s : ChainState} (hc : s.calls id = some c)
    (hphase : c.phase ≠ .lock) : s.acquires (.await id outcome) = none := by
  show (s.calls id).bind _ = none
  rw [hc]
  show (match c.phase with
    | .lock =>
      if outcome.ok ∧ (s.store.get s.clock (loadLockKey c.op.queueId)).isNone then some id else none
    | _ => none) = none
  split
  · rename_i hlock
    exact absurd hlock hphase
  · rfl

theorem ChainState.acquires_of_lock {s : ChainState} (hc : s.calls id = some c)
    (hphase : c.phase = .lock) (hok : outcome.ok = true) :
    s.acquires (.await id outcome) =
      if (s.store.get s.clock (loadLockKey c.op.queueId)).isNone then some id else none := by
  show (s.calls id).bind _ = _
  rw [hc]
  show (match c.phase with
    | .lock =>
      if outcome.ok ∧ (s.store.get s.clock (loadLockKey c.op.queueId)).isNone then some id else none
    | _ => none) = _
  rw [hphase]
  simp [hok]

theorem FlightState.moves_of_setCall {s : ChainState} (hc : f.chain.calls id = some c)
    (hcalls : s.calls = f.chain.calls) (hdb : s.db = f.chain.db) (hclock : s.clock = f.chain.clock)
    (htime : s.time = f.chain.time) (hrecorded : c.Recorded c') :
    f.Moves ⟨(s.setCall id c').advance, lockedAt⟩ id c c' := by
  refine ⟨hc, fun i => ?_, hrecorded, hdb, hclock, congrArg (· + 1) htime⟩
  show (if i = id then some c' else s.calls i) = _
  rw [hcalls]

/-- A call goes on from one await of the cache to another one, or to its answer. -/
theorem FlightState.Inv.relabel (h : f.Inv db store queueId) (hc : f.chain.calls id = some c)
    (hat : f.chain.FlightAt db store queueId c')
    (hdatabase : c'.times.database = c.times.database) (hcached : c'.times.cached = c.times.cached)
    (hop : c'.op = c.op) {s : ChainState} (hcalls : s.calls = f.chain.calls)
    (hdb : s.db = f.chain.db) (hclock : s.clock = f.chain.clock) (htime : s.time = f.chain.time)
    (hstore : s.store = f.chain.store) (hlocked : lockedAt = f.lockedAt)
    (hquiet : c'.phase.loading = true →
      f.chain.store.get f.chain.clock (detailsKey queueId) = none)
    (hinTime : InTime ⟨(s.setCall id c').advance, lockedAt⟩) :
    Inv db store queueId ⟨(s.setCall id c').advance, lockedAt⟩ := by
  have hrecorded : c.Recorded c' :=
    ⟨hop, fun m hm => hdatabase ▸ hm, fun k hk => hcached ▸ hk⟩
  have hmoves : f.Moves ⟨(s.setCall id c').advance, lockedAt⟩ id c c' :=
    moves_of_setCall hc hcalls hdb hclock htime hrecorded
  refine h.goOn hmoves hdatabase hcached (congrFun hstore _) ?_ ?_ hquiet hinTime
  · intro i t ht hlive
    show s.store (loadLockKey queueId) = _
    rw [hstore]
    refine h.marker i t (hlocked ▸ ht) ?_
    rw [← hclock]
    exact hlive
  · exact hat.mono fun _ _ => hmoves.kept

/-- The `SET NX`. -/
theorem FlightState.Inv.locks (h : f.Inv db store queueId) (hc : f.chain.calls id = some c)
    (hphase : c.phase = .lock) (hok : outcome.ok = true)
    (hlocked : ∀ i, lockedAt i = if f.chain.acquires (.await id outcome) = some i then
      some f.chain.clock else f.lockedAt i)
    (hinTime : InTime ⟨(f.chain.lock id c outcome).advance, lockedAt⟩) :
    Inv db store queueId ⟨(f.chain.lock id c outcome).advance, lockedAt⟩ := by
  have hat : c.Untried := by
    have hat := h.phases id c hc
    unfold ChainState.FlightAt at hat
    rwa [hphase] at hat
  have hqueue : c.op.queueId = queueId := by
    rw [h.ops id c hc]
    rfl
  have hacquires := ChainState.acquires_of_lock hc hphase hok
  rw [hqueue] at hacquires
  unfold ChainState.lock at hinTime ⊢
  simp only [hok, Bool.true_or, if_true, hqueue] at hinTime ⊢
  by_cases hfree : (f.chain.store.get f.chain.clock (loadLockKey queueId)).isNone = true
  · rw [if_pos hfree] at hinTime hacquires ⊢
    have hrecorded : c.Recorded { c with phase := .recheck } :=
      ⟨rfl, fun _ hm => hm, fun _ hk => hk⟩
    refine h.goOn (moves_of_setCall hc rfl rfl rfl rfl hrecorded) rfl rfl
      (CacheStore.setIfAbsent_other (detailsKey_ne_loadLockKey queueId queueId)) ?_ hat ?_ hinTime
    · intro i t ht hlive
      replace ht : lockedAt i = some t := ht
      show (f.chain.store.setIfAbsent f.chain.clock (loadLockKey queueId)
        ⟨.loadLock, f.chain.clock + loadLockTtl, id⟩) (loadLockKey queueId) = _
      rw [CacheStore.setIfAbsent, if_pos hfree, CacheStore.set_self]
      rw [hlocked, hacquires] at ht
      by_cases hi : id = i
      · rw [if_pos (congrArg some hi)] at ht
        obtain rfl := Option.some.inj ht
        rw [hi]
      · -- the key was free, so no other call has a marker that is alive
        rw [if_neg (fun heq => hi (Option.some.inj heq))] at ht
        have hget := CacheStore.get_eq_some.mpr ⟨h.marker i t ht hlive, hlive⟩
        have hget : f.chain.store.get f.chain.clock (loadLockKey queueId) = _ := hget
        rw [hget] at hfree
        simp at hfree
    · intro hloading
      simp [CallPhase.loading] at hloading
  · rw [if_neg hfree] at hinTime hacquires ⊢
    have hsame : lockedAt = f.lockedAt := by
      funext i
      rw [hlocked, hacquires, if_neg (by simp)]
    have hat' : f.chain.FlightAt db store queueId { c with phase := .waiting } := hat
    refine h.relabel hc hat' rfl rfl rfl rfl rfl rfl rfl ?_ hsame ?_ hinTime
    · show f.chain.store.setIfAbsent _ _ _ = _
      rw [CacheStore.setIfAbsent, if_neg hfree]
    · intro hloading
      simp [CallPhase.loading] at hloading

/-- **One await.** -/
theorem FlightState.Inv.await (h : f.Inv db store queueId) (hvalid : db.Valid)
    (hentries : ∀ e, store (detailsKey queueId) = some e → ∃ value, e.value = .queueDetails value)
    (hc : f.chain.calls id = some c) (hok : outcome.ok = true)
    (hawait : AwaitStep config f.chain id c outcome t)
    (hlocked : ∀ i, lockedAt i = if f.chain.acquires (.await id outcome) = some i then
      some f.chain.clock else f.lockedAt i)
    (hinTime : InTime ⟨t.advance, lockedAt⟩) : Inv db store queueId ⟨t.advance, lockedAt⟩ := by
  have hop := h.ops id c hc
  have hqueue : c.op.queueId = queueId := by
    rw [hop]
    rfl
  have hat := h.phases id c hc
  have hsame : c.phase ≠ .lock → lockedAt = f.lockedAt := by
    intro hphase
    funext i
    rw [hlocked, ChainState.acquires_of_phase hc hphase, if_neg (by simp)]
  -- what the cache has is the details of a queue
  have hvalue : ∀ e, f.chain.store (detailsKey queueId) = some e →
      ∃ value, e.value = .queueDetails value := by
    intro e he
    rcases h.entry e he with he | ⟨d, set, -, -, -, hloaded⟩
    · exact hentries e he
    · exact ⟨_, by rw [hloaded]; rfl⟩
  have hreads : ∀ {missed : CallPhase}, c.phase.Reads missed → c.Untried ∧ c.phase ≠ .lock := by
    intro missed hreads
    unfold ChainState.FlightAt at hat
    cases hphase : c.phase <;> rw [hphase] at hreads hat <;> cases hreads <;> exact ⟨hat, by simp⟩
  cases hawait with
  | known hphase | joins hphase | loads hphase | shared hphase =>
    unfold ChainState.FlightAt at hat
    rw [hphase] at hat
    exact hat.elim
  | unavailable _ hfailed | notWritten _ hfailed =>
    rw [hok] at hfailed
    simp at hfailed
  | degraded hphase hread =>
    rcases hread with hfailed | ⟨e, hget, hlock⟩
    · rw [hok] at hfailed
      simp at hfailed
    · rw [hqueue] at hget
      obtain ⟨value, hdetails⟩ := hvalue e (CacheStore.get_eq_some.mp hget).1
      rw [hdetails] at hlock
      simp at hlock
  | locks hphase => exact h.locks hc hphase hok hlocked hinTime
  | @hit missed e value hphase _ hget hdetails =>
    rw [hqueue] at hget
    obtain ⟨hstored, hlive⟩ := CacheStore.get_eq_some.mp hget
    obtain ⟨huntried, hnot⟩ := hreads hphase
    have hat' : f.chain.FlightAt db store queueId { c with
        phase := .returning (c.op.answer value.intoDetails)
        times := { c.times with hit := some (f.chain.moment, e.setBy) } } := by
      refine .shared huntried rfl hdetails hlive (h.entry e hstored) ?_
      rw [hop]
      rfl
    exact h.relabel hc hat' rfl rfl rfl rfl rfl rfl rfl rfl (hsame hnot)
      (fun hloading => by simp [CallPhase.loading] at hloading) hinTime
  | @missed missed hphase _ hget =>
    rw [hqueue] at hget
    obtain ⟨huntried, hnot⟩ := hreads hphase
    have hat' : f.chain.FlightAt db store queueId { c with phase := missed } := by
      generalize c.phase = phase at hphase
      cases hphase <;> exact huntried
    exact h.relabel hc hat' rfl rfl rfl rfl rfl rfl rfl rfl (hsame hnot) (fun _ => hget) hinTime
  | @queried query next hqueries _ =>
    cases hqueries with
    | database hphase =>
      unfold ChainState.FlightAt at hat
      rw [hphase] at hat
      exact hat.elim
    | load hphase =>
      have hrun : (MetadataOp.queueDetails c.op.queueId).run f.chain.db outcome.now =
          (f.chain.db, .queueDetails (db.details queueId)) := by
        rw [hqueue, h.source]
        simp only [MetadataOp.run, queueDetails_eq hvalid]
      rw [hrun] at hinTime ⊢
      have huntried : c.Untried := by
        unfold ChainState.FlightAt at hat
        rwa [hphase] at hat
      have hrecorded : c.Recorded { c with
          phase := afterLoad (.queueDetails (db.details queueId))
          times := { c.times with database := some f.chain.moment } } := by
        refine ⟨rfl, fun m hm => ?_, fun k hk => hk⟩
        rw [huntried.1] at hm
        simp at hm
      exact h.queried (moves_of_setCall hc rfl rfl rfl rfl hrecorded) hphase
        (afterLoad_queueDetails _) rfl rfl rfl (hsame (by rw [hphase]; simp)) hinTime
  | @wrote q value response hwrites _ =>
    cases hwrites with
    | writeThrough hphase =>
      unfold ChainState.FlightAt at hat
      rw [hphase] at hat
      exact hat.elim
    | populate hphase =>
      have hnone : c.times.cached = none := by
        unfold ChainState.FlightAt at hat
        rw [hphase] at hat
        exact hat.2.1
      have hrecorded : c.Recorded { c with
          phase := .returning (c.op.answer value.intoDetails)
          times := { c.times with cached := some f.chain.moment } } := by
        refine ⟨rfl, fun m hm => hm, fun k hk => ?_⟩
        rw [hnone] at hk
        simp at hk
      refine h.wrote (moves_of_setCall hc rfl rfl rfl rfl hrecorded) hphase ?_ rfl rfl ?_
        (hsame (by rw [hphase]; simp)) hinTime
      · rw [hop]
        rfl
      · rw [← hqueue]
        rfl
  | @finishes response hphase =>
    obtain ⟨names, loaders, answer, hfinish, hanswer, -⟩ := finish_eq config f.chain id c response
    rw [hfinish] at hinTime ⊢
    have hflown : f.chain.Flown db store queueId c response := by
      unfold ChainState.FlightAt at hat
      rwa [hphase] at hat
    have houter : answer = response := by
      rw [hop] at hanswer
      exact hanswer.elim (fun heq => heq) fun heq => heq
    have hat' : f.chain.FlightAt db store queueId { c with
        phase := .done answer
        times := { c.times with returned := some f.chain.moment } } := by
      rw [houter]
      cases hflown with
      | loaded hdatabase hcached hstep hresponse => exact .loaded hdatabase hcached hstep hresponse
      | shared huntried hhit hvalue hlive hwritten hresponse =>
        exact .shared huntried hhit hvalue hlive hwritten hresponse
    exact h.relabel hc hat' rfl rfl rfl rfl rfl rfl rfl rfl (hsame (by rw [hphase]; simp))
      (fun hloading => by simp [CallPhase.loading] at hloading) hinTime

/-- The steps outside of awaits. -/
theorem FlightState.Inv.outside (h : f.Inv db store queueId)
    (hdistributed : config.distributed = true)
    {a : ChainAction} (hflies : Flies config queueId f a) (hstep : f.step config a = some f')
    (ha : ∀ id outcome, a ≠ .await id outcome) : f'.Inv db store queueId := by
  have hinTime := hflies.2 f' hstep
  obtain ⟨s, hs, rfl⟩ := Option.map_eq_some_iff.mp hstep
  obtain ⟨t, hact, rfl⟩ := step_eq_some hs
  match a with
  | .start id process op =>
    obtain rfl : op = .queueDetails queueId := hflies.1
    obtain ⟨hnew, hact⟩ := Option.ite_none_right_eq_some.mp hact
    obtain rfl := Option.some.inj hact
    rw [Option.isNone_iff_eq_none] at hnew
    refine h.later rfl rfl rfl le_rfl rfl (fun i d hd => ?_) (fun i d hd => ?_) hinTime
    · have hne : i ≠ id := by
        rintro rfl
        rw [hnew] at hd
        simp at hd
      exact (if_neg hne).trans hd
    · by_cases hi : i = id
      · obtain rfl := Option.some.inj ((if_pos hi).symm.trans hd)
        refine Or.inr ⟨rfl, ?_, rfl, rfl⟩
        show config.sourcePhase (.queueDetails queueId) = .get
        rw [CacheConfig.sourcePhase, if_pos hdistributed]
      · exact Or.inl ((if_neg hi).symm.trans hd)
  | .elapse duration =>
    obtain rfl := Option.some.inj hact
    refine h.later rfl rfl rfl ?_ rfl (fun i d hd => hd) (fun i d hd => Or.inl hd) hinTime
    show f.chain.clock ≤ f.chain.clock + duration
    omega
  | .evict key => exact hflies.1.elim
  | .evictName process q => exact hflies.1.elim
  | .await id outcome => exact absurd rfl (ha id outcome)

/-- **All steps.** -/
theorem FlightState.inv_of_execution (hdistributed : config.distributed = true) (hvalid : db.Valid)
    (hentries : ∀ e, store (detailsKey queueId) = some e → ∃ value, e.value = .queueDetails value)
    (hrun : Execution (step config) (Flies config queueId) (start db store) f) :
    f.Inv db store queueId := by
  refine hrun.invariant (start_inv db store queueId) fun f a f' _ h hflies hstep => ?_
  by_cases ha : ∃ id outcome, a = .await id outcome
  · obtain ⟨id, outcome, rfl⟩ := ha
    have hinTime := hflies.2 f' hstep
    obtain ⟨s, hs, rfl⟩ := Option.map_eq_some_iff.mp hstep
    obtain ⟨t, hact, rfl⟩ := step_eq_some hs
    obtain ⟨c, hc, hawait⟩ := Option.bind_eq_some_iff.mp hact
    exact h.await hvalid hentries hc hflies.1 (await_cases hawait) (fun _ => rfl) hinTime
  · exact h.outside hdistributed hflies hstep fun id outcome heq => ha ⟨id, outcome, heq⟩

/-! ## Answers from an entry -/

/-- The call waits for an entry, or for the marker. -/
def CallPhase.asking : CallPhase → Bool
  | get | lock | recheck | waiting => true
  | _ => false

/-- While there is an entry no call loads, so a call may take its next await. -/
theorem FlightState.Inv.flies (h : f.Inv db store queueId) {e : CacheEntry}
    (hget : f.chain.store.get f.chain.clock (detailsKey queueId) = some e)
    (hc : f.chain.calls id = some c) (hawait : f.chain.await config id c ⟨true, true, 0⟩ = some t)
    (hcalls : t.calls = fun i => if i = id then some c' else f.chain.calls i)
    (hloading : c'.phase.loading = false) :
    ∃ f', f.step config (.await id ⟨true, true, 0⟩) = some f' ∧ f'.chain = t.advance ∧
      Flies config queueId f (.await id ⟨true, true, 0⟩) := by
  have hact : f.chain.act config (.await id ⟨true, true, 0⟩) = some t := by
    show (f.chain.calls id).bind _ = some t
    rw [hc]
    exact hawait
  have hstep : f.chain.step config (.await id ⟨true, true, 0⟩) = some t.advance := by
    rw [ChainState.step, hact]
    rfl
  refine ⟨_, by rw [step, hstep]; rfl, rfl, rfl, fun f' hf' => ?_⟩
  rw [step, hstep] at hf'
  obtain rfl := Option.some.inj hf'
  intro i d hd hd'
  have hd : t.calls i = some d := hd
  rw [hcalls] at hd
  by_cases hi : i = id
  · obtain rfl := Option.some.inj ((if_pos hi).symm.trans hd)
    rw [hloading] at hd'
    simp at hd'
  · have hquiet := h.quiet i d ((if_neg hi).symm.trans hd) hd'
    rw [hget] at hquiet
    simp at hquiet

section Answers

variable {e : CacheEntry} {value : CachedQueueDetails}

/-- The states in which the call has been answered with the value of the entry. -/
def FlightState.AnsweredFrom (f : FlightState) (id : Nat) (value : CachedQueueDetails) : Prop :=
  ∃ c, f.chain.calls id = some c ∧ c.phase = .done (.queueDetails value.intoDetails)

theorem FlightState.answer_returning (hdistributed : config.distributed = true) (hvalid : db.Valid)
    (hentries : ∀ e, store (detailsKey queueId) = some e → ∃ value, e.value = .queueDetails value)
    (hrun : Execution (step config) (Flies config queueId) (start db store) f)
    (hget : f.chain.store.get f.chain.clock (detailsKey queueId) = some e)
    (hc : f.chain.calls id = some c)
    (hphase : c.phase = .returning (.queueDetails value.intoDetails)) :
    ∃ f', Execution (step config) (Flies config queueId) f f' ∧ f'.chain.clock = f.chain.clock ∧
      f'.AnsweredFrom id value := by
  have h := inv_of_execution hdistributed hvalid hentries hrun
  obtain ⟨names, loaders, answer, hfinish, hanswer, -⟩ :=
    finish_eq config f.chain id c (.queueDetails value.intoDetails)
  have houter : answer = .queueDetails value.intoDetails := by
    rw [h.ops id c hc] at hanswer
    exact hanswer.elim (fun heq => heq) fun heq => heq
  have hawait : f.chain.await config id c ⟨true, true, 0⟩ =
      some (f.chain.finish config id c (.queueDetails value.intoDetails)) := by
    rw [ChainState.await, hphase]
  rw [hfinish] at hawait
  obtain ⟨f', hstep, hchain, hflies⟩ := h.flies hget hc hawait rfl rfl
  refine ⟨f', .step .refl hflies hstep, by rw [hchain]; rfl, { c with
    phase := .done answer
    times := { c.times with returned := some f.chain.moment } }, ?_, congrArg CallPhase.done houter⟩
  rw [hchain]
  exact if_pos rfl

theorem FlightState.answer_read (hdistributed : config.distributed = true) (hvalid : db.Valid)
    (hentries : ∀ e, store (detailsKey queueId) = some e → ∃ value, e.value = .queueDetails value)
    (hrun : Execution (step config) (Flies config queueId) (start db store) f)
    (hget : f.chain.store.get f.chain.clock (detailsKey queueId) = some e)
    (hvalue : e.value = .queueDetails value) (hc : f.chain.calls id = some c)
    (hphase : c.phase = .get ∨ c.phase = .recheck ∨ c.phase = .waiting) :
    ∃ f', Execution (step config) (Flies config queueId) f f' ∧ f'.chain.clock = f.chain.clock ∧
      f'.AnsweredFrom id value := by
  have h := inv_of_execution hdistributed hvalid hentries hrun
  have hop := h.ops id c hc
  have hawait : f.chain.await config id c ⟨true, true, 0⟩ = some (f.chain.setCall id { c with
      phase := .returning (c.op.answer value.intoDetails)
      times := { c.times with hit := some (f.chain.moment, e.setBy) } }) := by
    have hqueue : c.op.queueId = queueId := by
      rw [hop]
      rfl
    have hread : ∀ missed, f.chain.read id c ⟨true, true, 0⟩ missed = f.chain.setCall id { c with
        phase := .returning (c.op.answer value.intoDetails)
        times := { c.times with hit := some (f.chain.moment, e.setBy) } } := by
      intro missed
      unfold ChainState.read
      simp only [hqueue, hget, hvalue, if_true]
    rcases hphase with hphase | hphase | hphase <;> rw [ChainState.await, hphase] <;>
      exact congrArg some (hread _)
  obtain ⟨f₁, hstep, hchain, hflies⟩ := h.flies hget hc hawait rfl rfl
  have hget₁ : f₁.chain.store.get f₁.chain.clock (detailsKey queueId) = some e := by
    rw [hchain]
    exact hget
  have hc₁ : f₁.chain.calls id = some { c with
      phase := .returning (c.op.answer value.intoDetails)
      times := { c.times with hit := some (f.chain.moment, e.setBy) } } := by
    rw [hchain]
    exact if_pos rfl
  have hanswer : c.op.answer value.intoDetails = .queueDetails value.intoDetails := by
    rw [hop]
    rfl
  obtain ⟨f', hrest, hclock, hanswered⟩ := answer_returning hdistributed hvalid hentries
    (.step hrun hflies hstep) hget₁ hc₁ (congrArg CallPhase.returning hanswer)
  refine ⟨f', (Execution.step .refl hflies hstep).trans hrest, ?_, hanswered⟩
  rw [hclock, hchain]
  rfl

/-- **While there is an entry, a call that asks for it gets it.** -/
theorem FlightState.answer (hdistributed : config.distributed = true) (hvalid : db.Valid)
    (hentries : ∀ e, store (detailsKey queueId) = some e → ∃ value, e.value = .queueDetails value)
    (hrun : Execution (step config) (Flies config queueId) (start db store) f)
    (hget : f.chain.store.get f.chain.clock (detailsKey queueId) = some e)
    (hvalue : e.value = .queueDetails value) (hc : f.chain.calls id = some c)
    (hasking : c.phase.asking = true) :
    ∃ f', Execution (step config) (Flies config queueId) f f' ∧ f'.chain.clock = f.chain.clock ∧
      f'.AnsweredFrom id value := by
  by_cases hlock : c.phase = .lock
  · -- whoever has the marker looks again
    have h := inv_of_execution hdistributed hvalid hentries hrun
    obtain ⟨store', phase, hlocked, hstore, hphase⟩ := lock_eq f.chain id c ⟨true, true, 0⟩
    have hread : phase = .recheck ∨ phase = .waiting := by
      refine hphase.imp_right fun hrest => hrest.resolve_right fun hdegraded => ?_
      have hsame := congrArg (fun s : ChainState => (s.calls id).map (·.phase)) hlocked
      simp only [ChainState.lock, ChainState.setCall, if_true, Option.map_some] at hsame
      rw [hdegraded] at hsame
      split at hsame <;> simp at hsame
    have hawait : f.chain.await config id c ⟨true, true, 0⟩ =
        some (({ f.chain with store := store' } : ChainState).setCall id { c with phase }) := by
      rw [ChainState.await, hlock]
      exact congrArg some hlocked
    have hloading : phase.loading = false := by
      rcases hread with rfl | rfl <;> rfl
    obtain ⟨f₁, hstep, hchain, hflies⟩ := h.flies hget hc hawait rfl hloading
    have hget₁ : f₁.chain.store.get f₁.chain.clock (detailsKey queueId) = some e := by
      rw [hchain]
      show (store' (detailsKey queueId)).filter _ = _
      rw [hstore]
      exact hget
    have hc₁ : f₁.chain.calls id = some { c with phase } := by
      rw [hchain]
      exact if_pos rfl
    obtain ⟨f', hrest, hclock, hanswered⟩ := answer_read hdistributed hvalid hentries
      (.step hrun hflies hstep) hget₁ hvalue hc₁ (Or.inr hread)
    refine ⟨f', (Execution.step .refl hflies hstep).trans hrest, ?_, hanswered⟩
    rw [hclock, hchain]
    rfl
  · refine answer_read hdistributed hvalid hentries hrun hget hvalue hc ?_
    revert hasking hlock
    cases c.phase <;> simp [CallPhase.asking]

end Answers

/-! ## Single flight -/

/-- **One load for the lifetime of an entry.**  In every run of calls of `queue_details` for one
    queue, no two loads are under way at once; of two loads the later one reads the database
    after the entry of the earlier one has expired, and no call loads while there is an entry; a
    call answers what it has loaded itself or what an entry had that had not expired; and while
    there is an entry every call that asks can be answered from it. -/
theorem single_flight (hdistributed : config.distributed = true) {order : TriggerOrder}
    (hreached : db.Reached order) (queueId : Uuid) (before : DetailsStore queueId)
    (hrun : Execution (FlightState.step config) (FlightState.Flies config queueId)
      (.start db before.store) f) :
    (∀ i j c d, f.chain.calls i = some c → c.phase.loading = true → f.chain.calls j = some d →
      d.phase.loading = true → i = j) ∧
    (∀ i j c d m m', f.chain.calls i = some c → c.times.database = some m →
      f.chain.calls j = some d → d.times.database = some m' → i ≠ j →
      (∃ set, c.times.cached = some set ∧ m.step < set.step ∧ set.step < m'.step ∧
        set.clock + db.entryTtl queueId ≤ m'.clock) ∨
      ∃ set, d.times.cached = some set ∧ m'.step < set.step ∧ set.step < m.step ∧
        set.clock + db.entryTtl queueId ≤ m.clock) ∧
    (∀ id c, f.chain.calls id = some c → c.phase.loading = true →
      f.chain.store.get f.chain.clock (detailsKey queueId) = none) ∧
    (∀ id c response, f.chain.calls id = some c → c.phase = .done response →
      f.chain.Flown db before.store queueId c response) ∧
    ∀ id c e, f.chain.calls id = some c → c.phase.asking = true →
      f.chain.store.get f.chain.clock (detailsKey queueId) = some e →
      ∃ value f', e.value = .queueDetails value ∧
        Execution (FlightState.step config) (FlightState.Flies config queueId) f f' ∧
        f'.chain.clock = f.chain.clock ∧ f'.AnsweredFrom id value := by
  have hvalid := hreached.valid
  have h := FlightState.inv_of_execution hdistributed hvalid before.details hrun
  refine ⟨fun i j c d hi hc hj hd => h.loading_unique hi hc hj hd, ?_, h.quiet, ?_, ?_⟩
  · intro i j c d m m' hi hm hj hm' hne
    rcases lt_trichotomy m.step m'.step with hlt | heq | hlt
    · exact Or.inl (h.successive i c m j d m' hi hm hj hm' hlt)
    · exact absurd (h.distinct i c m j d m' hi hm hj hm' heq) hne
    · exact Or.inr (h.successive j d m' i c m hj hm' hi hm hlt)
  · intro id c response hc hphase
    have hat := h.phases id c hc
    unfold ChainState.FlightAt at hat
    rwa [hphase] at hat
  · intro id c e hc hasking hget
    have hvalue : ∃ value, e.value = .queueDetails value := by
      rcases h.entry e (CacheStore.get_eq_some.mp hget).1 with he | ⟨d, set, -, -, -, hloaded⟩
      · exact before.details e he
      · exact ⟨_, by rw [hloaded]; rfl⟩
    obtain ⟨value, hvalue⟩ := hvalue
    obtain ⟨f', hrest, hclock, hanswered⟩ :=
      FlightState.answer hdistributed hvalid before.details hrun hget hvalue hc hasking
    exact ⟨value, f', hvalue, hrest, hclock, hanswered⟩

/-! ## Runs of a few calls -/

/-- The loads among the first `n` calls have time left. -/
def FlightState.inTimeBelow (f : FlightState) (n : Nat) : Bool :=
  (List.range n).all fun id => (f.chain.calls id).all fun c =>
    !c.phase.loading || (f.lockedAt id).any fun t => f.chain.clock < t + loadLockTtl

/-- `Flies`, for runs that make the first `n` calls only. -/
def FlightState.fliesBelow (config : CacheConfig) (queueId : Uuid) (n : Nat) (f : FlightState)
    (a : ChainAction) : Prop :=
  (match a with
    | .start id _ op => id < n ∧ op = .queueDetails queueId
    | .await _ outcome => outcome.ok = true
    | .elapse _ => True
    | .evict _ | .evictName _ _ => False) ∧
  (f.step config a).all fun f' => f'.inTimeBelow n

instance (f : FlightState) (a : ChainAction) (n : Nat) :
    Decidable (FlightState.fliesBelow config queueId n f a) :=
  match a with
  | .start id _ op => inferInstanceAs (Decidable ((id < n ∧ op = .queueDetails queueId) ∧ _))
  | .await _ outcome => inferInstanceAs (Decidable (outcome.ok = true ∧ _))
  | .elapse _ => inferInstanceAs (Decidable (True ∧ _))
  | .evict _ | .evictName _ _ => inferInstanceAs (Decidable (False ∧ _))

/-- Nobody else is calling. -/
theorem FlightState.calls_below {n : Nat}
    (hrun : Execution (step config) (fliesBelow config queueId n) (start db store) f) :
    ∀ id c, f.chain.calls id = some c → id < n := by
  refine hrun.invariant (I := fun f => ∀ id c, f.chain.calls id = some c → id < n)
    (fun id c hc => by simp [start, ChainState.start] at hc)
    fun f a f' _ h hallowed hstep id c hc => ?_
  obtain ⟨s, hs, rfl⟩ := Option.map_eq_some_iff.mp hstep
  obtain ⟨t, hact, rfl⟩ := step_eq_some hs
  replace hc : t.calls id = some c := hc
  cases a with
  | start other process op =>
    obtain ⟨-, hact⟩ := Option.ite_none_right_eq_some.mp hact
    obtain rfl := Option.some.inj hact
    by_cases hid : id = other
    · rw [hid]
      exact hallowed.1.1
    · exact h id c ((if_neg hid).symm.trans hc)
  | await other outcome =>
    obtain ⟨d, hd, hawait⟩ := Option.bind_eq_some_iff.mp hact
    by_cases hid : id = other
    · exact h id d (hid ▸ hd)
    · exact h id c ((await_cases hawait).others hid ▸ hc)
  | elapse duration =>
    obtain rfl := Option.some.inj hact
    exact h id c hc
  | evict key => exact hallowed.1.elim
  | evictName process q => exact hallowed.1.elim

theorem FlightState.execution_of_below {n : Nat}
    (hrun : Execution (step config) (fliesBelow config queueId n) (start db store) f) :
    Execution (step config) (Flies config queueId) (start db store) f := by
  refine hrun.invariant .refl fun f a f' hrun₀ h hallowed hstep => ?_
  refine .step h ⟨?_, fun f'' hstep' => ?_⟩ hstep
  · have hkind := hallowed.1
    match a with
    | .start _ _ op => exact hkind.2
    | .await _ outcome => exact hkind
    | .elapse _ => trivial
    | .evict _ | .evictName _ _ => exact hkind
  · have hbelow := calls_below (.step hrun₀ hallowed hstep')
    have htime : f''.inTimeBelow n = true := by
      have hall := hallowed.2
      rw [hstep'] at hall
      exact hall
    intro id c hc hloading
    have hone := List.all_eq_true.mp htime id (List.mem_range.mpr (hbelow id c hc))
    rw [hc] at hone
    simp only [Option.all_some, hloading, Bool.not_true, Bool.false_or, Option.any_eq_true,
      decide_eq_true_eq] at hone
    exact hone

/-- Two processes miss at the same time, and a third call comes after the entry has expired. -/
def threeReads : List ChainAction :=
  .start 0 0 (.queueDetails 1) :: awaits 0 1 ++ .start 1 1 (.queueDetails 1) :: awaits 1 1 ++
    awaits 0 1 ++ awaits 1 1 ++ awaits 0 3 ++ awaits 1 2 ++ awaits 0 1 ++
    .elapse 6000 :: .start 2 1 (.queueDetails 1) :: awaits 2 6

/-- The first and the third call load, the second one is answered from the entry. -/
theorem single_flight_threeReads : ∃ f c d e m m' set,
    runAllowed (FlightState.step bothCaches) (FlightState.fliesBelow bothCaches 1 3)
        (.start .empty .empty) threeReads = some f ∧
      f.chain.calls 0 = some c ∧ c.times.database = some m ∧ c.times.cached = some set ∧
      f.chain.calls 2 = some d ∧ d.times.database = some m' ∧
      set.clock + missingTtl ≤ m'.clock ∧
      f.chain.calls 1 = some e ∧ e.times.database = none ∧
      f.chain.Flown .empty .empty 1 e (.queueDetails none) := by
  have hrun : (runAllowed (FlightState.step bothCaches) (FlightState.fliesBelow bothCaches 1 3)
      (.start .empty .empty) threeReads).map (fun f =>
        ((f.chain.calls 0).map (·.times.database), (f.chain.calls 1).map (·.record),
          (f.chain.calls 2).map (·.times.database))) =
      some (some (some ⟨8, 0⟩),
        some ⟨.queueDetails 1, some (.queueDetails none), 3, none, some 11⟩,
        some (some ⟨18, 6000⟩)) := by
    decide +kernel
  obtain ⟨f, hf, hseen⟩ := Option.map_eq_some_iff.mp hrun
  simp only [Prod.mk.injEq] at hseen
  obtain ⟨hfirst, hsecond, hthird⟩ := hseen
  obtain ⟨c, hc, hm⟩ := Option.map_eq_some_iff.mp hfirst
  obtain ⟨e, he, herecord⟩ := Option.map_eq_some_iff.mp hsecond
  obtain ⟨d, hd, hm'⟩ := Option.map_eq_some_iff.mp hthird
  have hempty : Database.empty.Reached .deleteFirst := Or.inl ⟨[], rfl⟩
  obtain ⟨-, hloads, -, hanswers, -⟩ := single_flight rfl hempty 1
    ⟨.empty, fun _ hentry => by simp [CacheStore.empty] at hentry⟩
    (FlightState.execution_of_below (execution_of_runAllowed hf))
  have hdone : e.phase = .done (.queueDetails none) :=
    CallPhase.response_eq_some.mp (congrArg CallRecord.response herecord)
  have hnone : e.times.database = none := by
    have hsteps : e.times.database.map (·.step) = none := congrArg CallRecord.database herecord
    exact Option.map_eq_none_iff.mp hsteps
  rcases hloads 0 2 c d _ _ hc hm hd hm' (by decide) with hexpired | ⟨set, -, hlate, hearly, -⟩
  · obtain ⟨set, hset, -, -, hclock⟩ := hexpired
    exact ⟨f, c, d, e, _, _, set, hf, hc, hm, hset, hd, hm', hclock, he, hnone,
      hanswers 1 e _ he hdone⟩
  · exact absurd (hlate.trans hearly) (by decide)

end Retsu
