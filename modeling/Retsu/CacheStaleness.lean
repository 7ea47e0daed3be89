/-
  Calls at the same time: how old an answer from the shared cache can be.

  The details under a key carry no version, and the `SET` of a call comes any time after its
  statement.  So the last `SET` decides what the cache has, and it may be the one of a call whose
  statement is older than the configuration it replaces.  `ChainState.Traced` says of every entry
  and of every answer which call's statement it comes from.
-/
import Retsu.Application
import Retsu.CacheRefinement

namespace Retsu

open Relational Concurrency

variable {config : CacheConfig} {s s' t : ChainState} {id : Nat} {c c' : MetadataCall}
  {response : MetadataResponse} {queueId : Uuid}

/-! ## Where details come from -/

/-- Of the `SET`s under the queue's key before the step `bound` the last was the one of the call
    `writer`, at `set`; its statement was at `statement`. -/
structure ChainState.LastSet (s : ChainState) (queueId : Uuid) (writer : Nat)
    (statement set : Moment) (bound : Nat) : Prop where
  wrote : ∃ c, s.calls writer = some c ∧ c.op.queueId = queueId ∧
    c.times.database = some statement ∧ c.times.cached = some set
  last : ∀ id c k, s.calls id = some c → c.op.queueId = queueId → c.times.cached = some k →
    k.step < bound → id = writer ∨ k.step < set.step

/-- The details that a call answers are what the database had at its own statement, or at the
    statement of the call that had set the entry it was answered from. -/
inductive ChainState.Source (s : ChainState) (c : MetadataCall) (details : Option QueueDetails) : Prop
  | database {statement : Moment} (hdatabase : c.times.database = some statement)
      (hdetails : s.past statement.step c.op.queueId = details)
  | cache {get statement set : Moment} {writer : Nat} (hhit : c.times.hit = some (get, writer))
      (hlast : s.LastSet c.op.queueId writer statement set get.step) (hset : set.step < get.step)
      (hage : get.clock < set.clock + detailsTtl)
      (hdetails : s.past statement.step c.op.queueId = details)

/-- The details of a read have a source, those of an update are its own. -/
structure ChainState.Explains (s : ChainState) (c : MetadataCall) (response : MetadataResponse) :
    Prop where
  read : ∀ q details, c.op = .queueDetails q → response = .queueDetails details →
    s.Source c details
  update : ∀ q configuration details, c.op = .updateQueue q configuration →
    response = .updateQueue (some details) →
    ∃ m, c.times.database = some m ∧ s.past m.step q = some details

/-- No statement has been executed for the call, and it has set nothing. -/
def MetadataCall.Untried (c : MetadataCall) : Prop :=
  c.times.database = none ∧ c.times.cached = none

/-- What the await a call is at says of its past. -/
def ChainState.Reached (s : ChainState) (c : MetadataCall) : Prop :=
  match c.phase with
  | .lookup | .joined _ => c.Untried ∧ ∃ q, c.op = .queueName q
  | .get | .lock | .recheck | .waiting | .load => c.Untried
  | .database query => c.Untried ∧ (query = c.op ∨ query = .queueDetails c.op.queueId)
  | .populate value => c.times.cached = none ∧ s.Explains c (c.op.answer value.intoDetails) ∧
      ∃ m, c.times.database = some m ∧ s.past m.step c.op.queueId = value.intoDetails
  | .writeThrough response details => c.times.cached = none ∧ s.Explains c response ∧
      details.id = c.op.queueId ∧
      ∃ m, c.times.database = some m ∧ s.past m.step c.op.queueId = some details
  | .returning response | .done response => s.Explains c response

/-- The moments of a call, in their order. -/
structure MetadataCall.Ordered (c : MetadataCall) (time : Nat) : Prop where
  started : c.times.started.step ≤ time
  database : ∀ m, c.times.database = some m → c.times.started.step < m.step ∧ m.step ≤ time
  cached : ∀ k, c.times.cached = some k → k.step ≤ time
  hit : ∀ m writer, c.times.hit = some (m, writer) →
    c.times.started.step < m.step ∧ m.step ≤ time
  returned : ∀ r, c.times.returned = some r → (∃ response, c.phase = .done response) ∧
    (∀ m, c.times.database = some m → m.step ≤ r.step) ∧
    ∀ k, c.times.cached = some k → k.step ≤ r.step

/-- The entry was set by the last call that has set one under the key, and has what the database
    had at that call's statement. -/
def ChainState.Stored (s : ChainState) (queueId : Uuid) (e : CacheEntry) : Prop :=
  ∃ value statement set, e.value = .queueDetails value ∧ e.expiresAt = set.clock + value.ttl ∧
    s.past statement.step queueId = value.intoDetails ∧
    s.LastSet queueId e.setBy statement set (s.time + 1)

structure ChainState.Traced (s : ChainState) : Prop where
  valid : s.db.Valid
  now : s.past s.time = s.db.details
  ordered : ∀ id c, s.calls id = some c → c.Ordered s.time
  reached : ∀ id c, s.calls id = some c → s.Reached c
  entries : ∀ q e, s.store (detailsKey q) = some e → s.Stored q e
  /-- A configuration changes by the statement of a call on that queue. -/
  changes : ∀ n < s.time, ∀ q, s.past (n + 1) q ≠ s.past n q → ∃ id c m, s.calls id = some c ∧
    c.op.queueId = q ∧ c.times.database = some m ∧ m.step = n + 1

/-! ## What a step keeps -/

/-- What has happened in a call has happened. -/
structure MetadataCall.Recorded (c c' : MetadataCall) : Prop where
  op : c'.op = c.op
  database : ∀ m, c.times.database = some m → c'.times.database = some m
  cached : ∀ k, c.times.cached = some k → c'.times.cached = some k

theorem MetadataCall.Recorded.refl (c : MetadataCall) : c.Recorded c :=
  ⟨rfl, fun _ h => h, fun _ h => h⟩

/-- One step later. -/
structure ChainState.Extends (s s' : ChainState) : Prop where
  time : s'.time = s.time + 1
  past : ∀ n, n ≤ s.time → s'.past n = s.past n
  calls : ∀ id c, s.calls id = some c → ∃ c', s'.calls id = some c' ∧ c.Recorded c'
  cached : ∀ id c' k, s'.calls id = some c' → c'.times.cached = some k → k.step ≤ s.time →
    ∃ c, s.calls id = some c ∧ c.op.queueId = c'.op.queueId ∧ c.times.cached = some k

theorem ChainState.LastSet.extend {writer : Nat} {statement set : Moment} {bound : Nat}
    (h : s.LastSet queueId writer statement set bound) (hextends : s.Extends s')
    (hbound : bound ≤ s.time + 1) : s'.LastSet queueId writer statement set bound where
  wrote := by
    obtain ⟨c, hc, hq, hdatabase, hcached⟩ := h.wrote
    obtain ⟨c', hc', hrecorded⟩ := hextends.calls _ c hc
    exact ⟨c', hc', hrecorded.op ▸ hq, hrecorded.database _ hdatabase, hrecorded.cached _ hcached⟩
  last id c' k hc' hq hcached hstep := by
    obtain ⟨c, hc, hsame, hk⟩ := hextends.cached id c' k hc' hcached (by omega)
    exact h.last id c k hc (hsame.trans hq) hk hstep

/-- A statement that has been executed is not in the future. -/
theorem ChainState.Traced.past_extend (h : s.Traced) (hextends : s.Extends s')
    (hc : s.calls id = some c) {m : Moment} (hm : c.times.database = some m) :
    s'.past m.step = s.past m.step :=
  hextends.past _ ((h.ordered id c hc).database m hm).2

theorem ChainState.Explains.extend (h : s.Explains c response) (htraced : s.Traced)
    (hc : s.calls id = some c) (hextends : s.Extends s') : s'.Explains c response where
  read q details hop hresponse := by
    cases h.read q details hop hresponse with
    | database hdatabase hdetails =>
      exact .database hdatabase (by rw [htraced.past_extend hextends hc hdatabase, hdetails])
    | cache hhit hlast hset hage hdetails =>
      obtain ⟨d, hd, -, hstatement, -⟩ := hlast.wrote
      have hstep := ((htraced.ordered id c hc).hit _ _ hhit).2
      exact .cache hhit (hlast.extend hextends (by omega)) hset hage
        (by rw [htraced.past_extend hextends hd hstatement, hdetails])
  update q configuration details hop hresponse := by
    obtain ⟨m, hm, hdetails⟩ := h.update q configuration details hop hresponse
    exact ⟨m, hm, by rw [htraced.past_extend hextends hc hm, hdetails]⟩

/-- A call that has not moved. -/
theorem ChainState.Reached.extend (h : s.Reached c) (htraced : s.Traced)
    (hc : s.calls id = some c) (hextends : s.Extends s') : s'.Reached c := by
  unfold ChainState.Reached at h ⊢
  split at h
  all_goals first | exact h | skip
  · obtain ⟨hcached, hexplains, m, hm, hdetails⟩ := h
    exact ⟨hcached, hexplains.extend htraced hc hextends, m, hm,
      by rw [htraced.past_extend hextends hc hm, hdetails]⟩
  · obtain ⟨hcached, hexplains, hid, m, hm, hdetails⟩ := h
    exact ⟨hcached, hexplains.extend htraced hc hextends, hid, m, hm,
      by rw [htraced.past_extend hextends hc hm, hdetails]⟩
  · exact h.extend htraced hc hextends
  · exact h.extend htraced hc hextends

theorem MetadataCall.Ordered.mono {time time' : Nat} (h : c.Ordered time) (hle : time ≤ time') :
    c.Ordered time' where
  started := h.started.trans hle
  database m hm := (h.database m hm).imp_right hle.trans'
  cached k hk := (h.cached k hk).trans hle
  hit m writer hhit := (h.hit m writer hhit).imp_right hle.trans'
  returned := h.returned

/-- **One step later everything is still traced**: the calls that have moved, the entries that
    have been set and the configurations that have changed are accounted for. -/
theorem ChainState.Traced.extend (h : s.Traced) (hextends : s.Extends s')
    (hvalid : s'.db.Valid) (hnow : s'.past s'.time = s'.db.details)
    (hcalls : ∀ id c', s'.calls id = some c' → s.calls id = some c' ∨
      (c'.Ordered s'.time ∧ s'.Reached c'))
    (hentries : ∀ q e, s'.store (detailsKey q) = some e → s'.Stored q e ∨
      (s.store (detailsKey q) = some e ∧ ∀ id c' k, s'.calls id = some c' →
        c'.op.queueId = q → c'.times.cached = some k → k.step ≤ s.time))
    (hchanges : ∀ q, s'.db.details q ≠ s.db.details q → ∃ id c' m, s'.calls id = some c' ∧
      c'.op.queueId = q ∧ c'.times.database = some m ∧ m.step = s.time + 1) : s'.Traced where
  valid := hvalid
  now := hnow
  ordered id c' hc' := by
    rcases hcalls id c' hc' with hold | ⟨hordered, -⟩
    · rw [hextends.time]
      exact (h.ordered id c' hold).mono (Nat.le_succ _)
    · exact hordered
  reached id c' hc' := by
    rcases hcalls id c' hc' with hold | ⟨-, hreached⟩
    · exact (h.reached id c' hold).extend h hold hextends
    · exact hreached
  entries q e he := by
    rcases hentries q e he with hstored | ⟨hold, hnone⟩
    · exact hstored
    · obtain ⟨value, statement, set, hvalue, hexpires, hdetails, hlast⟩ := h.entries q e hold
      obtain ⟨d, hd, -, hstatement, -⟩ := hlast.wrote
      have hlast' := hlast.extend hextends (Nat.le_refl _)
      refine ⟨value, statement, set, hvalue, hexpires, ?_, hlast'.wrote, ?_⟩
      · rw [h.past_extend hextends hd hstatement, hdetails]
      · intro id c' k hc' hq hk _
        have hstep := hnone id c' k hc' hq hk
        exact hlast'.last id c' k hc' hq hk (by omega)
  changes n hn q hne := by
    rw [hextends.time] at hn
    by_cases hlast : n = s.time
    · subst hlast
      rw [hextends.past _ (Nat.le_refl _), h.now, ← hextends.time, hnow] at hne
      exact hchanges q hne
    · rw [hextends.past _ (by omega), hextends.past _ (by omega)] at hne
      obtain ⟨id, c, m, hc, hq, hm, hstep⟩ := h.changes n (by omega) q hne
      obtain ⟨c', hc', hrecorded⟩ := hextends.calls id c hc
      exact ⟨id, c', m, hc', hrecorded.op ▸ hq, hrecorded.database m hm, hstep⟩

/-! ## Steps outside of calls -/

theorem ChainState.Traced.start {db : Database} (hvalid : db.Valid) : (ChainState.start db).Traced where
  valid := hvalid
  now := rfl
  ordered id c hc := by simp [ChainState.start] at hc
  reached id c hc := by simp [ChainState.start] at hc
  entries q e he := by simp [ChainState.start, CacheStore.empty] at he
  changes n _ q hne := absurd rfl hne

/-- A call that has asked nobody yet. -/
theorem ChainState.Reached.source (huntried : c.Untried) (hphase : c.phase = config.sourcePhase c.op) :
    s.Reached c := by
  have hcases : c.phase = .get ∨ c.phase = .database c.op := by
    rw [hphase]
    cases c.op with
    | createQueue | updateQueue => exact Or.inr rfl
    | queueName | queueDetails =>
      simp only [CacheConfig.sourcePhase]
      split
      · exact Or.inl rfl
      · exact Or.inr rfl
  unfold ChainState.Reached
  rcases hcases with hget | hdatabase
  · rw [hget]
    exact huntried
  · rw [hdatabase]
    exact ⟨huntried, Or.inl rfl⟩

theorem ChainState.Reached.first (huntried : c.Untried)
    (hphase : c.phase = config.firstPhase c.process c.op) : s.Reached c := by
  cases hop : c.op with
  | queueName q =>
    rw [hop] at hphase
    by_cases hmemory : config.inMemory c.process = true
    · replace hphase : c.phase = .lookup := hphase.trans (if_pos hmemory)
      unfold ChainState.Reached
      rw [hphase]
      exact ⟨huntried, q, hop⟩
    · have hsource : c.phase = config.sourcePhase c.op := by
        rw [hop]
        exact hphase.trans (if_neg hmemory)
      exact .source huntried hsource
  | createQueue | queueDetails | updateQueue =>
    have hsource : c.phase = config.sourcePhase c.op := by
      rw [hop] at hphase ⊢
      exact hphase
    exact .source huntried hsource

/-- Time passes, or an entry goes. -/
theorem ChainState.Traced.environment (h : s.Traced) {a : ChainAction} (ha : a.environment = true)
    (hstep : s.step config a = some s') : s'.Traced := by
  obtain ⟨t, hact, rfl⟩ := step_eq_some hstep
  obtain ⟨hdb, hcalls, -, hshrinks⟩ := environment_shrinks ha hact
  obtain ⟨htime, hpast⟩ : t.time = s.time ∧ t.past = s.past := by
    cases a <;> first | exact Option.some.inj hact ▸ ⟨rfl, rfl⟩ | simp [ChainAction.environment] at ha
  have hextends : s.Extends t.advance := by
    refine ⟨congrArg (· + 1) htime, fun n hn => ?_, fun id c hc => ?_, fun id c k hc hk _ => ?_⟩
    · show (if n = t.time + 1 then _ else t.past n) = _
      rw [htime, if_neg (by omega), hpast]
    · exact ⟨c, by rw [← hc, ← hcalls]; rfl, .refl c⟩
    · exact ⟨c, by rw [← hc, ← hcalls]; rfl, rfl, hk⟩
  have hsame : ∀ id c, t.advance.calls id = some c → s.calls id = some c := by
    intro id c hc
    rw [← hc, ← hcalls]
    rfl
  refine h.extend hextends (hdb ▸ h.valid) (if_pos rfl) (fun id c hc => Or.inl (hsame id c hc))
    (fun q e he => Or.inr ⟨hshrinks.entry he, fun id c k hc _ hk => ?_⟩) fun q hne => ?_
  · exact (h.ordered id c (hsame id c hc)).cached k hk
  · exact absurd (congrFun (congrArg Database.details hdb) q) hne

/-- A call starts. -/
theorem ChainState.Traced.begin (h : s.Traced) (hnew : s.calls id = none) (process : Nat)
    (op : MetadataOp) : (s.begin config id process op).advance.Traced := by
  have hother : ∀ other c, s.calls other = some c →
      (s.begin config id process op).advance.calls other = some c := by
    intro other c hc
    have hne : other ≠ id := by
      rintro rfl
      rw [hnew] at hc
      simp at hc
    exact (if_neg hne).trans hc
  have hcall : ∀ other c, (s.begin config id process op).advance.calls other = some c →
      s.calls other = some c ∨ c = ⟨process, op, config.firstPhase process op,
        ⟨s.moment, none, false, none, none, none⟩⟩ := by
    intro other c hc
    by_cases hid : other = id
    · exact Or.inr (Option.some.inj ((if_pos hid).symm.trans hc)).symm
    · exact Or.inl ((if_neg hid).symm.trans hc)
  have hold : ∀ other c k, (s.begin config id process op).advance.calls other = some c →
      c.times.cached = some k → s.calls other = some c := by
    intro other c k hc hk
    rcases hcall other c hc with hc | rfl
    · exact hc
    · simp at hk
  have hextends : s.Extends (s.begin config id process op).advance := by
    refine ⟨rfl, fun n hn => ?_, fun other c hc => ⟨c, hother other c hc, .refl c⟩,
      fun other c k hc hk _ => ⟨c, hold other c k hc hk, rfl, hk⟩⟩
    exact if_neg (by show ¬n = s.time + 1; omega)
  refine h.extend hextends h.valid (if_pos rfl) (fun other c hc => ?_)
    (fun q e he => Or.inr ⟨he, fun other c k hc _ hk => ?_⟩) fun q hne => absurd rfl hne
  · refine (hcall other c hc).imp_right ?_
    rintro rfl
    exact ⟨⟨Nat.le_refl _, by simp, by simp, by simp, by simp⟩, .first ⟨rfl, rfl⟩ rfl⟩
  · exact (h.ordered other c (hold other c k hc hk)).cached k hk

/-! ## Awaits -/

/-- **An await of a call**: the call moves on, its statement may change the configuration of its
    queue, and its `SET` may be carried out. -/
theorem ChainState.Traced.await (h : s.Traced) (hc : s.calls id = some c)
    (hcalls : t.calls = s.calls) (htime : t.time = s.time) (hpast : t.past = s.past)
    (hvalid : t.db.Valid) (hrecorded : c.Recorded c') (hordered : c'.Ordered (s.time + 1))
    (hreached : s.Extends (t.setCall id c').advance → (t.setCall id c').advance.Reached c')
    (hdb : ∀ q, t.db.details q ≠ s.db.details q →
      c.op.queueId = q ∧ c'.times.database = some s.moment)
    (hstore : (c'.times.cached = c.times.cached ∧
        ∀ q, t.store (detailsKey q) = s.store (detailsKey q)) ∨
      ∃ value m, c'.times.cached = some s.moment ∧ c.times.database = some m ∧
        s.past m.step c.op.queueId = value.intoDetails ∧
        t.store = s.store.set (detailsKey c.op.queueId)
          ⟨.queueDetails value, s.clock + value.ttl, id⟩) :
    (t.setCall id c').advance.Traced := by
  have hself : (t.setCall id c').advance.calls id = some c' := if_pos rfl
  have hother : ∀ other, other ≠ id → (t.setCall id c').advance.calls other = s.calls other := by
    intro other hne
    exact (if_neg hne).trans (congrFun hcalls other)
  have htime' : (t.setCall id c').advance.time = s.time + 1 := congrArg (· + 1) htime
  -- a `SET` of this call that is not this step is recorded
  have hcached : ∀ k, c'.times.cached = some k → k.step ≤ s.time → c.times.cached = some k := by
    intro k hk hstep
    rcases hstore with ⟨hsame, -⟩ | ⟨value, m, hset, -⟩
    · rw [← hsame]
      exact hk
    · obtain rfl := Option.some.inj (hset.symm.trans hk)
      have hnext : s.moment.step = s.time + 1 := rfl
      omega
  have hextends : s.Extends (t.setCall id c').advance := by
    refine ⟨htime', fun n hn => ?_, fun other d hd => ?_, fun other d k hd hk hstep => ?_⟩
    · show (if n = t.time + 1 then _ else t.past n) = _
      rw [htime, if_neg (by omega), hpast]
    · by_cases hid : other = id
      · subst hid
        obtain rfl := Option.some.inj (hc.symm.trans hd)
        exact ⟨c', hself, hrecorded⟩
      · exact ⟨d, (hother other hid).trans hd, .refl d⟩
    · by_cases hid : other = id
      · subst hid
        obtain rfl := Option.some.inj (hself.symm.trans hd)
        exact ⟨c, hc, by rw [hrecorded.op], hcached k hk hstep⟩
      · exact ⟨d, (hother other hid).symm.trans hd, rfl, hk⟩
  refine h.extend hextends hvalid (if_pos rfl) (fun other d hd => ?_) (fun q e he => ?_)
    fun q hne => ?_
  · by_cases hid : other = id
    · subst hid
      obtain rfl := Option.some.inj (hself.symm.trans hd)
      rw [htime']
      exact Or.inr ⟨hordered, hreached hextends⟩
    · exact Or.inl ((hother other hid).symm.trans hd)
  · replace he : t.store (detailsKey q) = some e := he
    have hearlier : ∀ other d k, other ≠ id → (t.setCall id c').advance.calls other = some d →
        d.times.cached = some k → k.step ≤ s.time := by
      intro other d k hne hd hk
      exact (h.ordered other d ((hother other hne).symm.trans hd)).cached k hk
    rcases hstore with ⟨hsame, hkept⟩ | ⟨value, m, hset, hm, hdetails, hentry⟩
    · rw [hkept] at he
      refine Or.inr ⟨he, fun other d k hd _ hk => ?_⟩
      by_cases hid : other = id
      · subst hid
        obtain rfl := Option.some.inj (hself.symm.trans hd)
        exact (h.ordered other c hc).cached k (hsame ▸ hk)
      · exact hearlier other d k hid hd hk
    · rw [hentry] at he
      by_cases hq : q = c.op.queueId
      · -- the entry of this step
        subst hq
        rw [CacheStore.set_self] at he
        obtain rfl := Option.some.inj he
        refine Or.inl ⟨value, m, s.moment, rfl, rfl, ?_, ?_, ?_⟩
        · rw [h.past_extend hextends hc hm, hdetails]
        · exact ⟨c', hself, by rw [hrecorded.op], hrecorded.database m hm, hset⟩
        · intro other d k hd _ hk _
          by_cases hid : other = id
          · exact Or.inl hid
          · exact Or.inr (Nat.lt_succ_of_le (hearlier other d k hid hd hk))
      · rw [CacheStore.set_other fun heq => hq (detailsKey_injective heq)] at he
        refine Or.inr ⟨he, fun other d k hd hdq hk => ?_⟩
        by_cases hid : other = id
        · subst hid
          obtain rfl := Option.some.inj (hself.symm.trans hd)
          exact absurd (hdq.symm.trans (by rw [hrecorded.op])) hq
        · exact hearlier other d k hid hd hk
  · obtain ⟨hq, hm⟩ := hdb q hne
    exact ⟨id, c', s.moment, hself, by rw [hrecorded.op, hq], hm, rfl⟩

theorem MetadataCall.Ordered.running {time : Nat} (h : c.Ordered time)
    (hrunning : ∀ response, c.phase ≠ .done response) : c.times.returned = none := by
  by_contra hreturned
  obtain ⟨r, hr⟩ := Option.ne_none_iff_exists'.mp hreturned
  obtain ⟨⟨response, hdone⟩, -⟩ := h.returned r hr
  exact hrunning response hdone

/-- What a step adds to the moments of a call has its own number. -/
theorem MetadataCall.Ordered.next {time : Nat} (h : c.Ordered time)
    (hstarted : c'.times.started = c.times.started)
    (hdatabase : ∀ m, c'.times.database = some m →
      c.times.database = some m ∨ m.step = time + 1)
    (hcached : ∀ k, c'.times.cached = some k → c.times.cached = some k ∨ k.step = time + 1)
    (hhit : ∀ m writer, c'.times.hit = some (m, writer) →
      c.times.hit = some (m, writer) ∨ m.step = time + 1)
    (hreturned : ∀ r, c'.times.returned = some r →
      (∃ response, c'.phase = .done response) ∧ r.step = time + 1) : c'.Ordered (time + 1) := by
  have hstart := h.started
  have hdatabase' : ∀ m, c'.times.database = some m →
      c.times.started.step < m.step ∧ m.step ≤ time + 1 := by
    intro m hm
    rcases hdatabase m hm with hold | hnew
    · have hbounds := h.database m hold
      omega
    · omega
  have hcached' : ∀ k, c'.times.cached = some k → k.step ≤ time + 1 := by
    intro k hk
    rcases hcached k hk with hold | hnew
    · have hbound := h.cached k hold
      omega
    · omega
  refine ⟨by rw [hstarted]; omega, fun m hm => ?_, hcached', fun m writer hm => ?_, fun r hr => ?_⟩
  · rw [hstarted]
    exact hdatabase' m hm
  · rw [hstarted]
    rcases hhit m writer hm with hold | hnew
    · have hbounds := h.hit m writer hold
      omega
    · omega
  · obtain ⟨hdone, hstep⟩ := hreturned r hr
    refine ⟨hdone, fun m hm => ?_, fun k hk => ?_⟩
    · rw [hstep]
      exact (hdatabase' m hm).2
    · rw [hstep]
      exact hcached' k hk

/-- A response depends on nothing but the call's statement and its `GET`. -/
theorem ChainState.Explains.congr (h : s.Explains c response) (hop : c'.op = c.op)
    (hdatabase : c'.times.database = c.times.database) (hhit : c'.times.hit = c.times.hit) :
    s.Explains c' response where
  read q details hq hresponse := by
    have hsource := h.read q details (hop ▸ hq) hresponse
    cases hsource with
    | database hm hdetails => exact .database (hdatabase ▸ hm) (by rw [hop, hdetails])
    | cache hget hlast hset hage hdetails =>
      exact .cache (hhit ▸ hget) (by rwa [hop]) hset hage (by rw [hop, hdetails])
  update q configuration details hq hresponse := by
    obtain ⟨m, hm, hdetails⟩ := h.update q configuration details (hop ▸ hq) hresponse
    exact ⟨m, hdatabase ▸ hm, hdetails⟩

theorem ChainState.Explains.failed {error : MetadataError} : s.Explains c (.failed error) where
  read _ _ _ hresponse := by simp at hresponse
  update _ _ _ _ hresponse := by simp at hresponse

/-- What the call's own statement has read. -/
theorem ChainState.Explains.answer {m : Moment} {details : Option QueueDetails}
    (hm : c.times.database = some m) (hdetails : s.past m.step c.op.queueId = details) :
    s.Explains c (c.op.answer details) where
  read q found hop hresponse := by
    rw [hop] at hresponse
    obtain rfl := MetadataResponse.queueDetails.inj hresponse
    exact .database hm hdetails
  update q configuration found hop hresponse := by
    rw [hop] at hresponse
    simp [MetadataOp.answer] at hresponse

/-- A name is neither a configuration that is read nor one that is updated. -/
theorem ChainState.Explains.name {q : Uuid} (hop : c.op = .queueName q) :
    s.Explains c response where
  read _ _ hq := by simp [hop] at hq
  update _ _ _ hq := by simp [hop] at hq

theorem ChainState.Explains.create {queue : Queue} (hop : c.op = .createQueue queue) :
    s.Explains c response where
  read _ _ hq := by simp [hop] at hq
  update _ _ _ hq := by simp [hop] at hq

/-- L1 tells the details of a queue as it gets them. -/
theorem ChainState.Explains.outer (h : s.Explains c response) :
    s.Explains c (c.op.outer response) := by
  cases hop : c.op with
  | queueName q => exact .name hop
  | createQueue | queueDetails | updateQueue =>
    rw [hop] at *
    exact h

/-- Where a statement of a call leads. -/
theorem ChainState.Reached.queried {db db' : Database} {query : MetadataOp} {m : Moment}
    {next : MetadataResponse → CallPhase} (heffect : MetadataEffect db query response db')
    (hqueries : c.Queries config query next)
    (hquery : query = c.op ∨ query = .queueDetails c.op.queueId)
    (hpast : s.past m.step = db'.details) (hop : c'.op = c.op) (hphase : c'.phase = next response)
    (hm : c'.times.database = some m) (hcached : c'.times.cached = none) : s.Reached c' := by
  have hreturning : ∀ response', c'.phase = .returning response' → s.Explains c' response' →
      s.Reached c' := by
    intro response' hphase' hexplains
    simp only [ChainState.Reached, hphase']
    exact hexplains
  have hwriteThrough : ∀ response' details, c'.phase = .writeThrough response' details →
      s.Explains c' response' → details.id = c'.op.queueId →
      db'.details c'.op.queueId = some details → s.Reached c' := by
    intro response' details hphase' hexplains hid hdetails
    simp only [ChainState.Reached, hphase']
    exact ⟨hcached, hexplains, hid, m, hm, by rw [hpast, hdetails]⟩
  have hanswer : s.Explains c' (c'.op.answer (db'.details c'.op.queueId)) :=
    .answer hm (congrFun hpast _)
  cases hqueries with
  | load hthis =>
    cases heffect with
    | failed => exact hreturning _ hphase .failed
    | details =>
      -- the details that the call is about to cache
      rw [hop] at hanswer
      have hpopulate : ∀ value : CachedQueueDetails, c'.phase = .populate value →
          value.intoDetails = db.details c.op.queueId → s.Reached c' := by
        intro value hphase' hvalue
        simp only [ChainState.Reached, hphase', hop]
        exact ⟨hcached, hvalue ▸ hanswer, m, hm, by rw [hpast, hvalue]⟩
      cases hdetails : db.details c.op.queueId with
      | none => exact hpopulate .missing (by rw [hphase, hdetails]; rfl) hdetails.symm
      | some details =>
        exact hpopulate (.found details) (by rw [hphase, hdetails]; rfl) hdetails.symm
  | database hthis =>
    rw [← hop] at hquery hphase
    cases heffect with
    | @failed _ error =>
      have hsame : config.afterDatabase c'.op (.failed error) = .returning (.failed error) := by
        cases c'.op <;> rfl
      exact hreturning _ (hphase.trans hsame) .failed
    | details =>
      have hsame : ∀ details, config.afterDatabase c'.op (.queueDetails details) =
          .returning (c'.op.answer details) := by
        intro details
        cases c'.op <;> rfl
      refine hreturning _ (hphase.trans (hsame _)) ?_
      rcases hquery with hown | hread
      · rw [← hown] at hanswer ⊢
        exact hanswer
      · rw [MetadataOp.queueDetails.inj hread]
        exact hanswer
    | @name q =>
      have hown := hquery.resolve_right (by simp)
      exact hreturning _ (hphase.trans (by rw [← hown]; rfl)) (.name hown.symm)
    | @alreadyExists queue =>
      have hown := hquery.resolve_right (by simp)
      exact hreturning _ (hphase.trans (by rw [← hown]; rfl)) (.create hown.symm)
    | @missing q configuration =>
      have hown := hquery.resolve_right (by simp)
      refine hreturning _ (hphase.trans (by rw [← hown]; rfl)) ⟨fun _ _ hread => ?_, fun _ _ _ _ hresponse => ?_⟩
      · rw [← hown] at hread
        simp at hread
      · simp at hresponse
    | @created queue _ hnew hdetails =>
      have hown := hquery.resolve_right (by simp)
      rw [← hown] at hphase
      by_cases hdistributed : config.distributed = true
      · refine hwriteThrough _ queue.details (hphase.trans (if_pos hdistributed)) (.create hown.symm) ?_ ?_
        · rw [← hown]
          rfl
        · rw [← hown, hdetails]
          exact Function.update_self ..
      · exact hreturning _ (hphase.trans (if_neg hdistributed)) (.create hown.symm)
    | @updated q configuration old new _ hold hid hname hdetails =>
      have hown := hquery.resolve_right (by simp)
      rw [← hown] at hphase
      have hstored : db'.details q = some new := by
        rw [hdetails]
        exact Function.update_self ..
      have hexplains : s.Explains c' (.updateQueue (some new)) := by
        refine ⟨fun _ _ hread => ?_, fun q' _ details hupdate hresponse => ?_⟩
        · rw [← hown] at hread
          simp at hread
        · rw [← hown] at hupdate
          obtain ⟨rfl, -⟩ := MetadataOp.updateQueue.inj hupdate
          obtain rfl := Option.some.inj (MetadataResponse.updateQueue.inj hresponse)
          exact ⟨m, hm, by rw [hpast, hstored]⟩
      by_cases hdistributed : config.distributed = true
      · refine hwriteThrough _ new (hphase.trans (if_pos hdistributed)) hexplains ?_ ?_
        · rw [← hown]
          exact hid
        · rw [← hown]
          exact hstored
      · exact hreturning _ (hphase.trans (if_neg hdistributed)) hexplains

/-- A statement changes the configuration of its own queue only. -/
theorem MetadataEffect.other {db db' : Database} {query op : MetadataOp}
    (heffect : MetadataEffect db query response db')
    (hquery : query = op ∨ query = .queueDetails op.queueId) {q : Uuid}
    (hne : db'.details q ≠ db.details q) : op.queueId = q := by
  cases heffect with
  | @created queue _ hnew hdetails =>
    obtain rfl := hquery.resolve_right (by simp)
    by_contra hother
    have hthis : q ≠ queue.id := Ne.symm hother
    rw [hdetails, Function.update_of_ne hthis] at hne
    exact hne rfl
  | @updated queueId configuration _ _ _ hold hid hname hdetails =>
    obtain rfl := hquery.resolve_right (by simp)
    by_contra hother
    have hthis : q ≠ queueId := Ne.symm hother
    rw [hdetails, Function.update_of_ne hthis] at hne
    exact hne rfl
  | failed | alreadyExists | name | details | missing => exact absurd rfl hne

/-- An await that changes neither the database nor any details in the cache. -/
theorem ChainState.Traced.moves (h : s.Traced) (hc : s.calls id = some c)
    (hcalls : t.calls = s.calls) (htime : t.time = s.time) (hpast : t.past = s.past)
    (hdb : t.db = s.db) (hstore : ∀ q, t.store (detailsKey q) = s.store (detailsKey q))
    (hop : c'.op = c.op) (hdatabase : c'.times.database = c.times.database)
    (hcached : c'.times.cached = c.times.cached) (hordered : c'.Ordered (s.time + 1))
    (hreached : s.Extends (t.setCall id c').advance → (t.setCall id c').advance.Reached c') :
    (t.setCall id c').advance.Traced :=
  h.await hc hcalls htime hpast (hdb ▸ h.valid)
    ⟨hop, fun _ hm => hdatabase ▸ hm, fun _ hk => hcached ▸ hk⟩ hordered hreached
    (fun q hne => absurd (congrFun (congrArg Database.details hdb) q) hne)
    (Or.inl ⟨hcached, hstore⟩)

/-- The same, of a call that has asked nobody yet and only goes on. -/
theorem ChainState.Traced.goes (h : s.Traced) (hc : s.calls id = some c)
    (hcalls : t.calls = s.calls) (htime : t.time = s.time) (hpast : t.past = s.past)
    (hdb : t.db = s.db) (hstore : ∀ q, t.store (detailsKey q) = s.store (detailsKey q))
    (hrunning : ∀ response, c.phase ≠ .done response) (phase : CallPhase)
    (hreached : ∀ u : ChainState, u.Reached { c with phase }) :
    (t.setCall id { c with phase }).advance.Traced := by
  have hnone := (h.ordered id c hc).running hrunning
  refine h.moves hc hcalls htime hpast hdb hstore rfl rfl rfl ?_ fun _ => hreached _
  exact (h.ordered id c hc).next rfl (fun _ => Or.inl) (fun _ => Or.inl) (fun _ _ => Or.inl)
    fun r hr => by simp [hnone] at hr

theorem CallPhase.Reads.untried {missed : CallPhase} (hreads : c.phase.Reads missed)
    (hreached : s.Reached c) : c.Untried := by
  generalize hphase : c.phase = phase at hreads
  cases hreads with
  | get | recheck | waiting =>
    simp only [ChainState.Reached, hphase] at hreached
    exact hreached

theorem CallPhase.Reads.miss {missed : CallPhase} (hreads : c.phase.Reads missed)
    (huntried : c.Untried) : s.Reached { c with phase := missed } := by
  generalize c.phase = phase at hreads
  cases hreads <;> exact huntried

theorem MetadataCall.Queries.untried {query : MetadataOp} {next : MetadataResponse → CallPhase}
    (hqueries : c.Queries config query next) (hreached : s.Reached c) :
    c.Untried ∧ (query = c.op ∨ query = .queueDetails c.op.queueId) := by
  cases hqueries with
  | database hphase =>
    simp only [ChainState.Reached, hphase] at hreached
    exact hreached
  | load hphase =>
    simp only [ChainState.Reached, hphase] at hreached
    exact ⟨hreached, Or.inr rfl⟩

theorem MetadataCall.Writes.reached {value : CachedQueueDetails}
    (hwrites : c.Writes queueId value response) (hreached : s.Reached c) :
    queueId = c.op.queueId ∧ c.times.cached = none ∧ s.Explains c response ∧
      ∃ m, c.times.database = some m ∧ s.past m.step c.op.queueId = value.intoDetails := by
  cases hwrites with
  | populate hphase =>
    simp only [ChainState.Reached, hphase] at hreached
    exact ⟨rfl, hreached⟩
  | writeThrough hphase =>
    simp only [ChainState.Reached, hphase] at hreached
    obtain ⟨hcached, hexplains, hid, hstatement⟩ := hreached
    exact ⟨hid, hcached, hexplains, hstatement⟩

/-- A call that is not past its last await is not done. -/
theorem AwaitStep.running {outcome : AwaitOutcome} (hstep : AwaitStep config s id c outcome t) :
    ∀ response, c.phase ≠ .done response := by
  intro response hdone
  cases hstep with
  | known hphase | joins hphase | loads hphase | shared hphase | locks hphase | finishes hphase =>
    rw [hdone] at hphase
    simp at hphase
  | queried hqueries | unavailable hqueries =>
    cases hqueries with
    | database hphase | load hphase =>
      rw [hdone] at hphase
      simp at hphase
  | hit hreads | missed hreads | degraded hreads =>
    rw [hdone] at hreads
    cases hreads
  | wrote hwrites | notWritten hwrites =>
    cases hwrites with
    | populate hphase | writeThrough hphase =>
      rw [hdone] at hphase
      simp at hphase

/-- The moments of a call that answers now. -/
theorem MetadataCall.Ordered.answers {time : Nat} (h : c.Ordered time)
    (hdone : ∃ response, c'.phase = .done response) (m : Moment) (hm : m.step = time + 1)
    (htimes : c'.times = { c.times with returned := some m }) : c'.Ordered (time + 1) := by
  refine h.next (by rw [htimes]) (fun d hd => ?_) (fun k hk => ?_) (fun d writer hd => ?_) fun r hr => ?_
  · rw [htimes] at hd
    exact Or.inl hd
  · rw [htimes] at hk
    exact Or.inl hk
  · rw [htimes] at hd
    exact Or.inl hd
  · rw [htimes] at hr
    exact ⟨hdone, Option.some.inj hr ▸ hm⟩

/-- **Every await keeps the trace.** -/
theorem ChainState.Traced.awaited (h : s.Traced) (hc : s.calls id = some c)
    {outcome : AwaitOutcome} (hstep : AwaitStep config s id c outcome t) : t.advance.Traced := by
  have hrunning := hstep.running
  have hreached := h.reached id c hc
  have hordered := h.ordered id c hc
  have hnone := hordered.running hrunning
  cases hstep with
  | known hphase hname =>
    simp only [ChainState.Reached, hphase] at hreached
    obtain ⟨-, q, hop⟩ := hreached
    exact h.moves hc rfl rfl rfl rfl (fun _ => rfl) rfl rfl rfl
      (hordered.answers ⟨_, rfl⟩ s.moment rfl rfl) fun _ => .name hop
  | joins hphase hname hloader =>
    simp only [ChainState.Reached, hphase] at hreached
    exact h.goes hc rfl rfl rfl rfl (fun _ => rfl) hrunning _ fun _ => hreached
  | loads hphase hname hloader =>
    simp only [ChainState.Reached, hphase] at hreached
    exact h.goes hc (t := s.setLoader c.process c.op.queueId (some id)) rfl rfl rfl rfl
      (fun _ => rfl) hrunning _ fun _ => .source hreached.1 rfl
  | shared hphase hloader hdone =>
    simp only [ChainState.Reached, hphase] at hreached
    obtain ⟨-, q, hop⟩ := hreached
    exact h.moves hc rfl rfl rfl rfl (fun _ => rfl) rfl rfl rfl
      (hordered.answers ⟨_, rfl⟩ s.moment rfl rfl) fun _ => .name hop
  | @queried query next hqueries hok =>
    obtain ⟨⟨hdatabase, hcached⟩, hquery⟩ := hqueries.untried hreached
    obtain ⟨heffect, hvalid⟩ := query.run_effect h.valid outcome.now
    refine h.await hc rfl rfl rfl hvalid ⟨rfl, fun m hm => ?_, fun k hk => ?_⟩ ?_ (fun _ => ?_)
      (fun q hne => ⟨?_, rfl⟩) (Or.inl ⟨rfl, fun _ => rfl⟩)
    · simp [hdatabase] at hm
    · simp [hcached] at hk
    · refine hordered.next rfl (fun m hm => Or.inr ?_) (fun _ => Or.inl) (fun _ _ => Or.inl)
        fun r hr => ?_
      · obtain rfl := Option.some.inj hm
        rfl
      · simp [hnone] at hr
    · exact .queried (m := s.moment) heffect hqueries hquery (if_pos rfl) rfl rfl rfl hcached
    · exact heffect.other hquery hne
  | unavailable hqueries hok =>
    refine h.moves hc rfl rfl rfl rfl (fun _ => rfl) rfl rfl rfl ?_ fun _ => .failed
    exact hordered.next rfl (fun _ => Or.inl) (fun _ => Or.inl) (fun _ _ => Or.inl)
      fun r hr => by simp [hnone] at hr
  | @hit missed e value hreads hok hget hvalue =>
    obtain ⟨hdatabase, hcached⟩ := hreads.untried hreached
    obtain ⟨hentry, hlive⟩ := CacheStore.get_eq_some.mp hget
    obtain ⟨found, statement, set, hfound, hexpires, hdetails, hlast⟩ := h.entries _ e hentry
    obtain rfl := CacheValue.queueDetails.inj (hfound.symm.trans hvalue)
    obtain ⟨writer, hwriter, -, hstatement, hset⟩ := hlast.wrote
    have hbefore := (h.ordered _ writer hwriter).cached set hset
    refine h.moves hc rfl rfl rfl rfl (fun _ => rfl) rfl rfl rfl ?_ fun hextends =>
      ⟨fun q details hop hresponse => ?_, fun q configuration details hop hresponse => ?_⟩
    · refine hordered.next rfl (fun _ => Or.inl) (fun _ => Or.inl) (fun m x hm => Or.inr ?_)
        fun r hr => by simp [hnone] at hr
      obtain ⟨rfl, -⟩ := Prod.mk.inj (Option.some.inj hm)
      rfl
    · replace hop : c.op = .queueDetails q := hop
      rw [hop] at hresponse
      obtain rfl := MetadataResponse.queueDetails.inj hresponse
      have hhit : some (s.moment, e.setBy) = some (s.moment, e.setBy) := rfl
      refine .cache hhit (hlast.extend hextends (Nat.le_refl _)) (Nat.lt_succ_of_le hbefore) ?_ ?_
      · have httl := found.ttl_le
        show s.clock < set.clock + detailsTtl
        omega
      · show _ = _
        rw [h.past_extend hextends hwriter hstatement, hdetails]
    · replace hop : c.op = .updateQueue q configuration := hop
      rw [hop] at hresponse
      simp [MetadataOp.answer] at hresponse
  | missed hreads hok hget =>
    have huntried := hreads.untried hreached
    exact h.goes hc rfl rfl rfl rfl (fun _ => rfl) hrunning _ fun _ => hreads.miss huntried
  | degraded hreads hread =>
    have huntried := hreads.untried hreached
    exact h.goes hc rfl rfl rfl rfl (fun _ => rfl) hrunning _ fun _ => ⟨huntried, Or.inr rfl⟩
  | locks hphase =>
    simp only [ChainState.Reached, hphase] at hreached
    obtain ⟨store, phase, hlock, hstore, hnext⟩ := lock_eq s id c outcome
    rw [hlock]
    refine h.goes hc (t := { s with store }) rfl rfl rfl rfl hstore hrunning phase fun _ => ?_
    rcases hnext with rfl | rfl | rfl
    · exact hreached
    · exact hreached
    · exact ⟨hreached, Or.inr rfl⟩
  | @wrote q value response hwrites heffect =>
    obtain ⟨rfl, hcached, hexplains, m, hm, hdetails⟩ := hwrites.reached hreached
    refine h.await hc rfl rfl rfl h.valid ⟨rfl, fun _ hm => hm, fun k hk => ?_⟩ ?_ (fun hextends => ?_)
      (fun q hne => absurd rfl hne) (Or.inr ⟨value, m, rfl, hm, hdetails, rfl⟩)
    · simp [hcached] at hk
    · refine hordered.next rfl (fun _ => Or.inl) (fun k hk => Or.inr ?_) (fun _ _ => Or.inl)
        fun r hr => ?_
      · obtain rfl := Option.some.inj hk
        rfl
      · simp [hnone] at hr
    · exact (hexplains.extend h hc hextends).congr rfl rfl rfl
  | @notWritten q value response hwrites hok hexecuted =>
    obtain ⟨-, -, hexplains, -⟩ := hwrites.reached hreached
    refine h.moves hc rfl rfl rfl rfl (fun _ => rfl) rfl rfl rfl ?_ fun hextends =>
      (hexplains.extend h hc hextends).congr rfl rfl rfl
    exact hordered.next rfl (fun _ => Or.inl) (fun _ => Or.inl) (fun _ _ => Or.inl)
      fun r hr => by simp [hnone] at hr
  | @finishes response hphase =>
    simp only [ChainState.Reached, hphase] at hreached
    obtain ⟨names, loaders, answer, hfinish, hanswer, -⟩ := finish_eq config s id c response
    rw [hfinish]
    have hexplains : s.Explains c answer := by
      rcases hanswer with rfl | rfl
      · exact hreached
      · exact hreached.outer
    exact h.moves hc rfl rfl rfl rfl (fun _ => rfl) rfl rfl rfl
      (hordered.answers ⟨_, rfl⟩ s.moment rfl rfl) fun hextends =>
        (hexplains.extend h hc hextends).congr rfl rfl rfl

/-! ## Runs -/

/-- **In every state the entries and the answers are traced.** -/
theorem traced_of_execution {db : Database} (hvalid : db.Valid)
    (hrun : Execution (ChainState.step config) anyAction (.start db) s) : s.Traced := by
  refine hrun.invariant (.start hvalid) fun s a s' _ h _ hstep => ?_
  by_cases henvironment : a.environment = true
  · exact h.environment henvironment hstep
  · obtain ⟨t, hact, rfl⟩ := step_eq_some hstep
    cases a with
    | start id process op =>
      obtain ⟨hnew, hact⟩ := Option.ite_none_right_eq_some.mp hact
      obtain rfl := Option.some.inj hact
      exact h.begin (Option.isNone_iff_eq_none.mp hnew) process op
    | await id outcome =>
      obtain ⟨c, hc, hawait⟩ := Option.bind_eq_some_iff.mp hact
      exact h.awaited hc (await_cases hawait)
    | elapse | evict | evictName => exact absurd rfl henvironment

/-- The configuration of the queue at that moment, or a later one. -/
def ChainState.Current (s : ChainState) (queueId : Uuid) (since : Moment)
    (details : Option QueueDetails) : Prop :=
  ∃ n, since.step ≤ n ∧ n ≤ s.time ∧ s.past n queueId = details

/-- The `SET` of `details` at `set` was made by a call whose statement is older than the one of the
    call `id`, at `commit`, and `id` has set nothing since. -/
structure ChainState.Overtaken (s : ChainState) (queueId : Uuid) (id : Nat) (commit : Moment)
    (writer : Nat) (set : Moment) (details : Option QueueDetails) : Prop where
  wrote : ∃ c statement, s.calls writer = some c ∧ c.op.queueId = queueId ∧
    c.times.database = some statement ∧ c.times.cached = some set ∧
    statement.step < commit.step ∧ s.past statement.step queueId = details
  last : ∀ c k, s.calls id = some c → c.times.cached = some k → k.step < set.step

/-- What was set last is current, unless it was overtaken. -/
theorem ChainState.Traced.current_or_overtaken (h : s.Traced) {writer : Nat}
    {statement set commit : Moment} {bound : Nat}
    (hlast : s.LastSet queueId writer statement set bound) (hc : s.calls id = some c)
    (hq : c.op.queueId = queueId) (hcommit : c.times.database = some commit)
    (hbound : ∀ k, c.times.cached = some k → k.step < bound) :
    s.Current queueId commit (s.past statement.step queueId) ∨
      s.Overtaken queueId id commit writer set (s.past statement.step queueId) := by
  obtain ⟨d, hd, hdq, hstatement, hset⟩ := hlast.wrote
  by_cases hle : commit.step ≤ statement.step
  · exact Or.inl ⟨statement.step, hle, ((h.ordered _ d hd).database statement hstatement).2, rfl⟩
  · refine Or.inr ⟨⟨d, statement, hd, hdq, hstatement, hset, by omega, rfl⟩, fun c' k hc' hk => ?_⟩
    obtain rfl := Option.some.inj (hc.symm.trans hc')
    rcases hlast.last id c k hc hq hk (hbound k hk) with rfl | hless
    · -- the writer is the call itself
      obtain rfl := Option.some.inj (hc.symm.trans hd)
      obtain rfl := Option.some.inj (hcommit.symm.trans hstatement)
      exact absurd (Nat.le_refl _) hle
    · exact hless

/-- The step at `m` has changed the configuration of the queue. -/
def ChainState.Changed (s : ChainState) (queueId : Uuid) (m : Moment) : Prop :=
  ∃ n, m.step = n + 1 ∧ s.past m.step queueId ≠ s.past n queueId

/-- A configuration that is no longer the current one was replaced by a call on the queue, after
    whose statement it has not changed again. -/
theorem ChainState.Traced.last_commit (h : s.Traced) {n : Nat} (hn : n ≤ s.time)
    (hne : s.past n queueId ≠ s.db.details queueId) :
    ∃ id c m, s.calls id = some c ∧ c.op.queueId = queueId ∧ c.times.database = some m ∧
      s.Changed queueId m ∧ n < m.step ∧
      ∀ k, m.step ≤ k → k ≤ s.time → s.past k queueId = s.db.details queueId := by
  -- from the latest step at which the configuration was another one
  induction hgap : s.time - n using Nat.strong_induction_on generalizing n with
  | _ gap ih =>
    by_cases hlater : ∃ k, n < k ∧ k ≤ s.time ∧ s.past k queueId ≠ s.db.details queueId
    · obtain ⟨k, hk, hktime, hkne⟩ := hlater
      obtain ⟨id, c, m, hc, hq, hm, hchanged, hstep, hsince⟩ :=
        ih (s.time - k) (by omega) hktime hkne rfl
      exact ⟨id, c, m, hc, hq, hm, hchanged, by omega, hsince⟩
    · have hsince : ∀ k, n < k → k ≤ s.time → s.past k queueId = s.db.details queueId := by
        intro k hk hktime
        by_contra hkne
        exact hlater ⟨k, hk, hktime, hkne⟩
      have htime : n ≠ s.time := by
        rintro rfl
        exact hne (by rw [h.now])
      have hchange : s.past (n + 1) queueId ≠ s.past n queueId := by
        rw [hsince (n + 1) (by omega) (by omega)]
        exact hne.symm
      obtain ⟨id, c, m, hc, hq, hm, hstep⟩ := h.changes n (by omega) queueId hchange
      exact ⟨id, c, m, hc, hq, hm, ⟨n, hstep, hstep ▸ hchange⟩, by omega,
        fun k hk => hsince k (by omega)⟩

/-! ## What is read after an update -/

/-- The answer of a read that starts after an update has returned. -/
theorem ChainState.Traced.read_after_update (h : s.Traced) {updater reader : Nat}
    {u r : MetadataCall} {configuration : QueueConfigurationUpdate} {new : QueueDetails}
    {answer : Option QueueDetails} {returned : Moment} (hu : s.calls updater = some u)
    (huop : u.op = .updateQueue queueId configuration)
    (hudone : u.phase = .done (.updateQueue (some new))) (hreturned : u.times.returned = some returned)
    (hr : s.calls reader = some r) (hrop : r.op = .queueDetails queueId)
    (hrdone : r.phase = .done (.queueDetails answer)) (hafter : returned.step < r.times.started.step) :
    ∃ commit, u.times.database = some commit ∧ s.past commit.step queueId = some new ∧
      (s.Current queueId commit answer ∨
        ∃ get writer set, r.times.hit = some (get, writer) ∧ set.step < get.step ∧
          get.clock < set.clock + detailsTtl ∧
          s.Overtaken queueId updater commit writer set answer) := by
  have hupdated := h.reached _ u hu
  simp only [ChainState.Reached, hudone] at hupdated
  obtain ⟨commit, hcommit, hnew⟩ := hupdated.update _ _ _ huop rfl
  refine ⟨commit, hcommit, hnew, ?_⟩
  obtain ⟨-, hbefore, hsetBefore⟩ := (h.ordered _ u hu).returned returned hreturned
  have hread := h.reached _ r hr
  simp only [ChainState.Reached, hrdone] at hread
  have hrqueue : r.op.queueId = queueId := by
    rw [hrop]
    rfl
  cases hread.read _ _ hrop rfl with
  | @database statement hstatement hdetails =>
    have hstep := (h.ordered _ r hr).database statement hstatement
    have hcommitted := hbefore commit hcommit
    exact Or.inl ⟨statement.step, by omega, hstep.2, by rw [← hrqueue, hdetails]⟩
  | @cache get statement set writer hhit hlast hset hage hdetails =>
    rw [hrqueue] at hlast hdetails
    have hget := (h.ordered _ r hr).hit get writer hhit
    have huqueue : u.op.queueId = queueId := by
      rw [huop]
      rfl
    have hbound : ∀ k, u.times.cached = some k → k.step < get.step := by
      intro k hk
      have hkreturned := hsetBefore k hk
      omega
    rw [← hdetails]
    exact (h.current_or_overtaken hlast hu huqueue hcommit hbound).imp_right fun hovertaken =>
      ⟨get, writer, set, hhit, hset, hage, hovertaken⟩

/-- A cached configuration is the current one, or the call that has committed the current one was
    overtaken. -/
theorem ChainState.Traced.cached_current (h : s.Traced) {e : CacheEntry} {details : QueueDetails}
    (he : s.store (detailsKey queueId) = some e) (hvalue : e.value = .queueDetails (.found details)) :
    s.db.details queueId = some details ∨
      ∃ id c commit set, s.calls id = some c ∧ c.op.queueId = queueId ∧
        c.times.database = some commit ∧ s.Changed queueId commit ∧
        (∀ k, commit.step ≤ k → k ≤ s.time → s.past k queueId = s.db.details queueId) ∧
        e.expiresAt = set.clock + detailsTtl ∧
        s.Overtaken queueId id commit e.setBy set (some details) := by
  obtain ⟨value, statement, set, hvalue', hexpires, hdetails, hlast⟩ := h.entries _ e he
  obtain rfl := CacheValue.queueDetails.inj (hvalue.symm.trans hvalue')
  replace hdetails : s.past statement.step queueId = some details := hdetails
  obtain ⟨d, hd, -, hstatement, -⟩ := hlast.wrote
  by_cases hcurrent : s.db.details queueId = some details
  · exact Or.inl hcurrent
  · have hstep := ((h.ordered _ d hd).database statement hstatement).2
    obtain ⟨id, c, commit, hc, hq, hcommit, hchanged, hlater, hsince⟩ :=
      h.last_commit hstep (by rw [hdetails]; exact Ne.symm hcurrent)
    refine Or.inr ⟨id, c, commit, set, hc, hq, hcommit, hchanged, hsince, hexpires, ?_⟩
    have hbound : ∀ k, c.times.cached = some k → k.step < s.time + 1 :=
      fun k hk => Nat.lt_succ_of_le ((h.ordered _ c hc).cached k hk)
    rcases h.current_or_overtaken hlast hc hq hcommit hbound with ⟨n, hn, hntime, hpast⟩ | hovertaken
    · exact absurd ((hsince n hn hntime).symm.trans (hpast.trans hdetails)) hcurrent
    · rwa [hdetails] at hovertaken

/-- **No entry and no answer is older than the last `SET` makes it.**  A read that starts after an
    update has returned answers that configuration or a later one, or what a call whose statement
    is older than the update's has set, less than the time to live before, when the update has set
    nothing since; an enqueue without a time to live takes the default of what it has read.  And
    what is cached is the current configuration, or what a call has set whose statement is older
    than the one that made this configuration the current one. -/
theorem configuration_after_update {db : Database} (hvalid : db.Valid)
    (hrun : Execution (ChainState.step config) anyAction (.start db) s) :
    (∀ queueId updater reader u r configuration new answer returned,
      s.calls updater = some u → u.op = .updateQueue queueId configuration →
      u.phase = .done (.updateQueue (some new)) → u.times.returned = some returned →
      s.calls reader = some r → r.op = .queueDetails queueId →
      r.phase = .done (.queueDetails answer) → returned.step < r.times.started.step →
      (∃ commit, u.times.database = some commit ∧ s.past commit.step queueId = some new ∧
        (s.Current queueId commit answer ∨
          ∃ get writer set, r.times.hit = some (get, writer) ∧ set.step < get.step ∧
            get.clock < set.clock + detailsTtl ∧
            s.Overtaken queueId updater commit writer set answer)) ∧
      ∀ (command : EnqueueMessageCommand) messageId message queue ttl, command.ttlSeconds = none →
        command.effective messageId (.ok answer) = .ok (message, queue, ttl) →
        answer.map (·.defaultMessageTtlSeconds) = some ttl) ∧
    ∀ queueId e details, s.store (detailsKey queueId) = some e →
      e.value = .queueDetails (.found details) →
      s.db.details queueId = some details ∨
        ∃ id c commit set, s.calls id = some c ∧ c.op.queueId = queueId ∧
          c.times.database = some commit ∧ s.Changed queueId commit ∧
          (∀ k, commit.step ≤ k → k ≤ s.time → s.past k queueId = s.db.details queueId) ∧
          e.expiresAt = set.clock + detailsTtl ∧
          s.Overtaken queueId id commit e.setBy set (some details) := by
  have h := traced_of_execution hvalid hrun
  constructor
  · intro queueId updater reader u r configuration new answer returned hu huop hudone hreturned hr
      hrop hrdone hafter
    exact ⟨h.read_after_update hu huop hudone hreturned hr hrop hrdone hafter,
      fun command messageId message queue ttl hdefault => command.effective_default hdefault⟩
  · intro queueId e details
    exact h.cached_current

/-! ## An update that is overtaken -/

theorem oneMinute_inRange : ttlInRange 60 := by decide

theorem noVisibility_inRange : (none : Option UInt32).all visibilityTimeoutInRange := rfl

theorem noAttempts_inRange : (none : Option UInt16).all maxDeliveryAttemptsInRange := rfl

/-- Messages are to live for one minute. -/
def oneMinuteUpdate : QueueConfigurationUpdate :=
  ⟨none, none, some 60, noVisibility_inRange, noAttempts_inRange, oneMinute_inRange⟩

/-- Queue 1 is created and its entry expires.  Process 1 has read the details when process 0
    updates them; it sets them after process 0 has set its own. -/
def overtakenUpdate : List ChainAction :=
  .start 0 0 (.createQueue (ordersQueue 5 fiveAttempts_inRange)) :: awaits 0 3 ++
    [.elapse 300000] ++
    .start 1 1 (.queueDetails 1) :: awaits 1 4 ++
    .start 2 0 (.updateQueue 1 oneMinuteUpdate) :: awaits 2 3 ++
    awaits 1 2 ++
    .start 3 0 (.queueDetails 1) :: awaits 3 2

/-- The details of queue 1, before the update and after it. -/
def oldOrders : QueueDetails := ⟨1, "orders", 1, 5, 604800⟩
def newOrders : QueueDetails := { oldOrders with defaultMessageTtlSeconds := 60 }

/-- What is seen of a call: its outcome, and the steps it started, had its statement and returned
    at. -/
structure CallRecord where
  op : MetadataOp
  response : Option MetadataResponse
  started : Nat
  database : Option Nat
  returned : Option Nat
deriving DecidableEq

def MetadataCall.record (c : MetadataCall) : CallRecord where
  op := c.op
  response := c.phase.response
  started := c.times.started.step
  database := c.times.database.map (·.step)
  returned := c.times.returned.map (·.step)

/-- Only the calls 0 to 3 are made. -/
def fourCalls (_ : ChainState) (a : ChainAction) : Prop :=
  match a with
  | .start id _ _ => id < 4
  | _ => True

instance (s : ChainState) (a : ChainAction) : Decidable (fourCalls s a) :=
  match a with
  | .start id _ _ => inferInstanceAs (Decidable (id < 4))
  | .await _ _ | .elapse _ | .evict _ | .evictName _ _ => inferInstanceAs (Decidable True)

theorem calls_of_fourCalls {db : Database}
    (hrun : Execution (ChainState.step config) fourCalls (.start db) s) :
    ∀ id c, s.calls id = some c → id < 4 := by
  refine hrun.invariant (I := fun s => ∀ id c, s.calls id = some c → id < 4)
    (fun id c hc => by simp [ChainState.start] at hc) fun s a s' _ h hallowed hstep id c hc => ?_
  obtain ⟨t, hact, rfl⟩ := step_eq_some hstep
  replace hc : t.calls id = some c := hc
  by_cases henvironment : a.environment = true
  · rw [(environment_shrinks henvironment hact).2.1] at hc
    exact h id c hc
  · cases a with
    | start other process op =>
      obtain ⟨-, hact⟩ := Option.ite_none_right_eq_some.mp hact
      obtain rfl := Option.some.inj hact
      by_cases hid : id = other
      · exact hid ▸ hallowed
      · exact h id c ((if_neg hid).symm.trans hc)
    | await other outcome =>
      obtain ⟨d, hd, hawait⟩ := Option.bind_eq_some_iff.mp hact
      by_cases hid : id = other
      · exact h id d (hid ▸ hd)
      · exact h id c ((await_cases hawait).others hid ▸ hc)
    | elapse | evict | evictName => exact absurd rfl henvironment

/-- Every command succeeds, the update has returned, the read starts after it, and it answers the
    old configuration, which is also what stays in the cache when no call is under way. -/
theorem configuration_after_update_overtaken :
    ∃ s u r returned, runAllowed (ChainState.step bothCaches) fourCalls (.start .empty)
        overtakenUpdate = some s ∧
      s.calls 2 = some u ∧ u.op = .updateQueue 1 oneMinuteUpdate ∧
      u.phase = .done (.updateQueue (some newOrders)) ∧ u.times.returned = some returned ∧
      s.calls 3 = some r ∧ r.op = .queueDetails 1 ∧
      r.phase = .done (.queueDetails (some oldOrders)) ∧
      returned.step < r.times.started.step ∧
      (∀ commit, u.times.database = some commit → ¬s.Current 1 commit (some oldOrders)) ∧
      (∀ id c, s.calls id = some c → ∃ response, c.phase = .done response) ∧
      (∃ e, s.store (detailsKey 1) = some e ∧ e.value = .queueDetails (.found oldOrders)) ∧
      s.db.details 1 = some newOrders ∧
      ((⟨1, "order", "HIGH", none⟩ : EnqueueMessageCommand).effective 7
        (.ok (some oldOrders))).toOption.map (·.2.2) = some 604800 := by
  have hrun : (runAllowed (ChainState.step bothCaches) fourCalls (.start .empty)
      overtakenUpdate).map (fun s => ((List.range 4).map fun id => (s.calls id).map (·.record),
        s.time, (List.range 8).map fun i => s.past (12 + i) 1,
        (s.store (detailsKey 1)).map (·.value))) =
      some ([some ⟨.createQueue (ordersQueue 5 fiveAttempts_inRange),
            some (.createQueue .created), 1, some 2, some 4⟩,
          some ⟨.queueDetails 1, some (.queueDetails (some oldOrders)), 6, some 10, some 16⟩,
          some ⟨.updateQueue 1 oneMinuteUpdate, some (.updateQueue (some newOrders)), 11, some 12,
            some 14⟩,
          some ⟨.queueDetails 1, some (.queueDetails (some oldOrders)), 17, none, some 19⟩],
        19, List.replicate 8 (some newOrders), some (.queueDetails (.found oldOrders))) := by
    decide +kernel
  obtain ⟨s, hs, hseen⟩ := Option.map_eq_some_iff.mp hrun
  simp only [Prod.mk.injEq] at hseen
  obtain ⟨hcalls, htime, hpast, hentry⟩ := hseen
  have hexecution := execution_of_runAllowed hs
  have hbelow := calls_of_fourCalls hexecution
  simp only [List.range_succ, List.range_zero, List.nil_append, List.cons_append, List.map_cons,
    List.map_nil, List.cons.injEq, and_true] at hcalls
  obtain ⟨hcreate, hload, hupdate, hread⟩ := hcalls
  obtain ⟨u, hu, hurecord⟩ := Option.map_eq_some_iff.mp hupdate
  obtain ⟨r, hr, hrrecord⟩ := Option.map_eq_some_iff.mp hread
  obtain ⟨returned, hreturned, hreturnedStep⟩ :=
    Option.map_eq_some_iff.mp (congrArg CallRecord.returned hurecord)
  have hnew : ∀ n, 12 ≤ n → n ≤ 19 → s.past n 1 = some newOrders := by
    intro n hn hn'
    have hmem : s.past (12 + (n - 12)) 1 ∈ (List.range 8).map fun i => s.past (12 + i) 1 :=
      List.mem_map.mpr ⟨n - 12, List.mem_range.mpr (by omega), rfl⟩
    rw [hpast, Nat.add_sub_cancel' hn] at hmem
    exact (List.mem_replicate.mp hmem).2
  have hnow : s.db.details 1 = some newOrders := by
    rw [← (traced_of_execution Database.empty_valid hexecution.any).now, htime]
    exact hnew 19 (by omega) (by omega)
  obtain ⟨e, he, hvalue⟩ := Option.map_eq_some_iff.mp hentry
  refine ⟨s, u, r, returned, hs, hu, congrArg CallRecord.op hurecord,
    CallPhase.response_eq_some.mp (congrArg CallRecord.response hurecord), hreturned, hr,
    congrArg CallRecord.op hrrecord,
    CallPhase.response_eq_some.mp (congrArg CallRecord.response hrrecord), ?_, ?_, ?_,
    ⟨e, he, hvalue⟩, hnow, by decide +kernel⟩
  · have hstarted : r.times.started.step = 17 := congrArg CallRecord.started hrrecord
    omega
  · rintro commit hcommit ⟨n, hle, hn, hold⟩
    have hstep : u.times.database.map (·.step) = some 12 := congrArg CallRecord.database hurecord
    rw [hcommit] at hstep
    have hcommitted : commit.step = 12 := Option.some.inj hstep
    rw [hnew n (by omega) (by omega)] at hold
    exact absurd hold (by decide)
  · intro id c hc
    have hdone : ∀ record : CallRecord, (s.calls id).map (·.record) = some record →
        record.response.isSome = true → ∃ response, c.phase = .done response := by
      intro record hrecord hsome
      rw [hc] at hrecord
      obtain rfl := Option.some.inj hrecord
      obtain ⟨response, hresponse⟩ := Option.isSome_iff_exists.mp hsome
      exact ⟨response, CallPhase.response_eq_some.mp hresponse⟩
    have hid := hbelow id c hc
    interval_cases id
    · exact hdone _ hcreate rfl
    · exact hdone _ hload rfl
    · exact hdone _ hupdate rfl
    · exact hdone _ hread rfl

/-- Queue 1 is created, updated and read. -/
def updateThenRead : List ChainAction :=
  .start 0 0 (.createQueue (ordersQueue 5 fiveAttempts_inRange)) :: awaits 0 3 ++
    .start 1 0 (.updateQueue 1 oneMinuteUpdate) :: awaits 1 3 ++
    .start 2 1 (.queueDetails 1) :: awaits 2 2

theorem configuration_after_update_inTurn :
    ∃ s u r returned commit, runAllowed (ChainState.step bothCaches) fourCalls (.start .empty)
        updateThenRead = some s ∧
      s.calls 1 = some u ∧ u.times.returned = some returned ∧ s.calls 2 = some r ∧
      returned.step < r.times.started.step ∧ r.phase = .done (.queueDetails (some newOrders)) ∧
      u.times.database = some commit ∧ s.past commit.step 1 = some newOrders ∧
      (s.Current 1 commit (some newOrders) ∨
        ∃ get writer set, r.times.hit = some (get, writer) ∧ set.step < get.step ∧
          get.clock < set.clock + detailsTtl ∧
          s.Overtaken 1 1 commit writer set (some newOrders)) := by
  have hrun : (runAllowed (ChainState.step bothCaches) fourCalls (.start .empty)
      updateThenRead).map (fun s => ((s.calls 1).map (·.record), (s.calls 2).map (·.record))) =
      some (some ⟨.updateQueue 1 oneMinuteUpdate, some (.updateQueue (some newOrders)), 5, some 6,
            some 8⟩,
          some ⟨.queueDetails 1, some (.queueDetails (some newOrders)), 9, none, some 11⟩) := by
    decide +kernel
  obtain ⟨s, hs, hseen⟩ := Option.map_eq_some_iff.mp hrun
  obtain ⟨hupdate, hread⟩ := Prod.mk.inj hseen
  obtain ⟨u, hu, hurecord⟩ := Option.map_eq_some_iff.mp hupdate
  obtain ⟨r, hr, hrrecord⟩ := Option.map_eq_some_iff.mp hread
  obtain ⟨returned, hreturned, hreturnedStep⟩ :=
    Option.map_eq_some_iff.mp (congrArg CallRecord.returned hurecord)
  have hstarted : r.times.started.step = 9 := congrArg CallRecord.started hrrecord
  have hdone : r.phase = .done (.queueDetails (some newOrders)) :=
    CallPhase.response_eq_some.mp (congrArg CallRecord.response hrrecord)
  have hafter : returned.step < r.times.started.step := by omega
  obtain ⟨⟨commit, hcommit, hnew, hanswer⟩, -⟩ :=
    (configuration_after_update Database.empty_valid (execution_of_runAllowed hs).any).1 1 1 2 u r
      oneMinuteUpdate newOrders (some newOrders) returned hu (congrArg CallRecord.op hurecord)
      (CallPhase.response_eq_some.mp (congrArg CallRecord.response hurecord)) hreturned hr
      (congrArg CallRecord.op hrrecord) hdone hafter
  exact ⟨s, u, r, returned, commit, hs, hu, hreturned, hr, hafter, hdone, hcommit, hnew, hanswer⟩

end Retsu
