/-
  One collector leads, and only what it reads while it holds the lock is reported.

  The lock, the sessions, the pools and the workers end in any order.  What links them: a lease
  is on a session that was granted the lock and that keeps it as long as it lives, and every
  state query is sent on the session of a lease.
-/
import Retsu.Collectors

namespace Retsu

open Concurrency

namespace Collectors

variable {π σ : Type}

/-! ## What a query has seen -/

/-- At every time from the first one to the last one the session had been granted the lock. -/
def KeptSince (s : Collectors π σ) (c : σ) (first last : Nat) : Prop :=
  ∀ t, first ≤ t → t ≤ last → (s.past t).lock.Keeps c

/-- The result is what the query gives on the database of the time. -/
def ReadsAt (s : Collectors π σ) (t : Nat)
    (result : Except RepositoryError (List QueuePriorityStateSnapshot)) : Prop :=
  result = collect (s.past t).database (s.past t).now

/-- The query was executed on the session, which held the lock from its beginning to its end. -/
def ReadHolding (s : Collectors π σ) (c : σ) (query : StateQuery) : Prop :=
  query.started ≤ query.finished ∧ query.finished ≤ s.time ∧
    (∀ t, query.started ≤ t → t ≤ query.finished → (s.past t).lock.holder = some c) ∧
    s.ReadsAt query.started query.result

/-- What can be on the wire of a session, and what the session is then known to have done. -/
def Backed (s : Collectors π σ) (c : σ) : Wire → Prop
  | .lockReply (.ok true) | .readSent => s.lock.Keeps c
  | .reading started result =>
    started ≤ s.time ∧ s.KeptSince c started s.time ∧ s.ReadsAt started result
  | .readReply (.ok query) => s.ReadHolding c query
  | _ => True

section Owned

variable [DecidableEq π] [DecidableEq σ] {s s' : Collectors π σ} {a : CollectorAction π σ}
  {p : π} {c : σ}

/-- The connection of a session is with the worker that has it in its hands. -/
def Owned (s : Collectors π σ) : Prop :=
  ∀ p c, (s.phase p).session = some c ↔ s.place c = .worker p

omit [DecidableEq π] [DecidableEq σ] in
/-- A connection is in the hands of one worker at most. -/
theorem Owned.unique {q : π} (h : s.Owned) (hp : (s.phase p).session = some c)
    (hq : (s.phase q).session = some c) : p = q := by
  rw [h] at hp hq
  rw [hp] at hq
  exact ConnectionPlace.worker.inj hq

theorem without_eq_worker {place : ConnectionPlace π} {q : π} :
    place.without p = .worker q ↔ place = .worker q ∧ q ≠ p := by
  cases place with
  | worker r =>
    simp only [ConnectionPlace.without]
    split
    · rename_i hr
      simp [hr, eq_comm]
    · rename_i hr
      simp only [ConnectionPlace.worker.injEq]
      exact ⟨fun h => ⟨h, h ▸ hr⟩, fun h => h.1⟩
  | pooled r | borrowed r =>
    simp only [ConnectionPlace.without]
    split <;> simp
  | _ => simp [ConnectionPlace.without]

omit [DecidableEq π] in
/-- A connection changes hands, but no worker has it before or after. -/
theorem Owned.setPlace {place : ConnectionPlace π} (h : s.Owned) (hphase : s'.phase = s.phase)
    (hplace : s'.place = Function.update s.place c place) (hbefore : ∀ q, s.place c ≠ .worker q)
    (hafter : ∀ q, place ≠ .worker q) : s'.Owned := by
  intro q d
  rw [hphase, hplace]
  rcases eq_or_ne d c with rfl | hne
  · rw [Function.update_self, h]
    exact ⟨fun hd => absurd hd (hbefore q), fun hd => absurd hd (hafter q)⟩
  · rw [Function.update_of_ne hne, h]

/-- A worker takes or leaves a connection. -/
theorem Owned.setPhase {phase : CollectorPhase σ} {place : ConnectionPlace π} (h : s.Owned)
    (hphase : s'.phase = Function.update s.phase p phase)
    (hplace : s'.place = Function.update s.place c place)
    (hothers : ∀ q ≠ p, (s.phase q).session ≠ some c)
    (hbefore : ∀ d ≠ c, (s.phase p).session ≠ some d)
    (hafter : ∀ d ≠ c, phase.session ≠ some d)
    (hnew : ∀ q, place = .worker q ↔ q = p ∧ phase.session = some c) : s'.Owned := by
  intro q d
  rw [hphase, hplace]
  rcases eq_or_ne q p with rfl | hq
  · rw [Function.update_self]
    rcases eq_or_ne d c with rfl | hne
    · rw [Function.update_self, hnew]
      exact ⟨fun hd => ⟨rfl, hd⟩, fun hd => hd.2⟩
    · rw [Function.update_of_ne hne, ← h]
      exact ⟨fun hd => absurd hd (hafter d hne), fun hd => absurd hd (hbefore d hne)⟩
  · rw [Function.update_of_ne hq]
    rcases eq_or_ne d c with rfl | hne
    · rw [Function.update_self, hnew]
      exact ⟨fun hd => absurd hd (hothers q hq), fun hd => absurd hd.1 hq⟩
    · rw [Function.update_of_ne hne, h]

theorem Owned.handover (h : s.Owned) (hstep : s.Handover a s') : s'.Owned := by
  cases hstep with
  | keeps hplace hsession _ =>
    intro q d
    rw [hplace, hsession, h]
  | takes c place hfree hplace htaker =>
    have hbefore : ∀ q, s.place c ≠ .worker q := by
      intro q hq
      obtain ⟨r, hpooled⟩ | habsent := hfree
      · rw [hpooled] at hq
        cases hq
      · rw [habsent] at hq
        cases hq
    obtain ⟨⟨q, rfl⟩, hphase⟩ | ⟨p, rfl, hconnecting, hphase⟩ := htaker
    · exact h.setPlace hphase hplace hbefore nofun
    · refine h.setPhase hphase hplace (fun q _ hq => hbefore q ((h q c).mp hq)) ?_ ?_ ?_
      · rw [hconnecting]
        nofun
      · exact fun d hne hd => hne (Option.some.inj hd).symm
      · exact fun q => ⟨fun hq => ⟨(ConnectionPlace.worker.inj hq).symm, rfl⟩,
          fun hq => congrArg _ hq.1.symm⟩
  | leaves p k phase place hhad hnone hphase hplace hdropped =>
    have hsession := CollectorPhase.session_of_connection hhad
    have hleft := CollectorPhase.session_of_none hnone
    refine h.setPhase hphase hplace (fun q hq hother => hq (h.unique hother hsession)) ?_ ?_ ?_
    · rw [hsession]
      exact fun d hne hd => hne (Option.some.inj hd).symm
    · rw [hleft]
      nofun
    · rw [hleft]
      obtain rfl | ⟨rfl, -⟩ := hdropped <;> exact fun q => ⟨nofun, nofun⟩
  | returns p c hborrowed hplace hphase =>
    exact h.setPlace hphase hplace (by rw [hborrowed]; nofun) nofun
  | crashes p hphase hplace =>
    intro q d
    rw [hphase, hplace, without_eq_worker, ← h]
    rcases eq_or_ne q p with rfl | hq
    · rw [Function.update_self]
      exact ⟨nofun, fun hd => absurd rfl hd.2⟩
    · rw [Function.update_of_ne hq]
      exact ⟨fun hd => ⟨hd, hq⟩, fun hd => hd.1⟩

end Owned

/-! ## The invariant -/

section Safe

variable [DecidableEq π] [DecidableEq σ] {s s' : Collectors π σ} {a : CollectorAction π σ}
  {p q : π} {c d : σ} {wire : Wire} {query : StateQuery}

/-- The leases that were acquired, and the snapshots that were replaced under them. -/
structure Credited (s : Collectors π σ) : Prop where
  /-- A session that was granted the lock for a lease keeps it. -/
  granted : ∀ p c, (p, c) ∈ s.acquired → s.lock.Keeps c
  lease : ∀ p lease, (s.phase p).lease = some lease →
    (p, lease.connection.session) ∈ s.acquired
  /-- A worker acquires one lease at most, and no longer seeks one afterwards. -/
  once : ∀ p c d, (p, c) ∈ s.acquired → (p, d) ∈ s.acquired → c = d
  found : ∀ p c, (p, c) ∈ s.acquired → (s.phase p).seeks = false
  replaced : ∀ r ∈ s.replaced, (r.process, r.session) ∈ s.acquired ∧
    r.query.result = .ok r.snapshot ∧ s.ReadHolding r.session r.query

/-- The lock at all times. -/
structure Recorded (s : Collectors π σ) : Prop where
  present : s.past s.time = s.moment
  lock : ∀ t ≤ s.time, (s.past t).lock.WellFormed
  /-- What has ended stays so. -/
  ended : ∀ t u, t ≤ u → u ≤ s.time → ∀ c, (s.past t).lock.status c = .ended →
    (s.past u).lock.status c = .ended

/-- Session, wire, pool and worker fit together. -/
structure Safe (s : Collectors π σ) : Prop where
  recorded : s.Recorded
  owned : s.Owned
  wire : ∀ c, s.Backed c (s.wire c)
  credited : s.Credited

omit [DecidableEq π] [DecidableEq σ] in
theorem safe_start (database : Database) (now : Int) :
    (start database now : Collectors π σ).Safe where
  recorded := ⟨rfl, fun _ _ => SessionLock.wellFormed_initial, fun _ _ _ _ _ => nofun⟩
  owned _ _ := ⟨nofun, nofun⟩
  wire _ := trivial
  credited := ⟨nofun, nofun, nofun, nofun, nofun⟩

/-- What has been recorded stays, and the present is added to it. -/
structure Later (s s' : Collectors π σ) : Prop where
  time : s'.time = s.time + 1
  past : ∀ t ≤ s.time, s'.past t = s.past t
  present : s'.past s'.time = s'.moment
  lock : s.lock.Step s'.lock

theorem later_record (h : s.act a = some s') : s.Later s'.record := by
  obtain ⟨hlock, ⟨htime, hpast⟩, -, -, -⟩ := act_effect h
  refine ⟨congrArg (· + 1) htime, fun t ht => ?_, Function.update_self .., hlock.step⟩
  show Function.update s'.past (s'.time + 1) s'.moment t = s.past t
  rw [Function.update_of_ne (by omega), hpast]

omit [DecidableEq π] in
theorem Later.time_le (h : s.Later s') : s.time ≤ s'.time := by
  rw [h.time]
  exact Nat.le_succ _

omit [DecidableEq π] in
theorem Later.cases (h : s.Later s') {t : Nat} (ht : t ≤ s'.time) :
    t ≤ s.time ∧ s'.past t = s.past t ∨ t = s'.time ∧ s'.past t = s'.moment := by
  rw [h.time] at ht
  rcases Nat.le_or_eq_of_le_succ ht with hpast | hlast
  · exact .inl ⟨hpast, h.past t hpast⟩
  · have hpresent : t = s'.time := hlast.trans h.time.symm
    refine .inr ⟨hpresent, ?_⟩
    rw [hpresent, h.present]

omit [DecidableEq π] in
theorem Recorded.later (h : s.Recorded) (hlater : s.Later s') : s'.Recorded := by
  obtain ⟨hpresent, hwell, hended⟩ := h
  have hnow := hwell s.time le_rfl
  rw [hpresent] at hnow
  refine ⟨hlater.present, fun t ht => ?_, fun t u htu hu c ht => ?_⟩
  · obtain ⟨hpast, heq⟩ | ⟨-, heq⟩ := hlater.cases ht
    · rw [heq]
      exact hwell t hpast
    · rw [heq]
      exact hlater.lock.wellFormed hnow
  · obtain ⟨hpast, heq⟩ | ⟨-, heq⟩ := hlater.cases hu
    · rw [hlater.past t (htu.trans hpast)] at ht
      rw [heq]
      exact hended t u htu hpast c ht
    · rw [heq]
      obtain ⟨hpast, heq'⟩ | ⟨-, heq'⟩ := hlater.cases (htu.trans hu)
      · rw [heq'] at ht
        have hlast := hended t s.time hpast le_rfl c ht
        rw [hpresent] at hlast
        exact hlater.lock.status_ended hlast
      · rwa [heq'] at ht

omit [DecidableEq π] in
theorem ReadHolding.later (h : s.ReadHolding c query) (hlater : s.Later s') :
    s'.ReadHolding c query := by
  obtain ⟨hle, htime, hheld, hread⟩ := h
  refine ⟨hle, htime.trans hlater.time_le, fun t ht ht' => ?_, ?_⟩
  · rw [hlater.past t (ht'.trans htime)]
    exact hheld t ht ht'
  · rw [ReadsAt, hlater.past _ (hle.trans htime)]
    exact hread

omit [DecidableEq π] in
/-- A grant that was kept up to now is kept one step longer. -/
theorem KeptSince.later {first : Nat} (h : s.KeptSince c first s.time) (hlater : s.Later s')
    (hnow : s.lock.Keeps c) : s'.KeptSince c first s'.time := by
  intro t ht ht'
  obtain ⟨hpast, heq⟩ | ⟨-, heq⟩ := hlater.cases ht'
  · rw [heq]
    exact h t ht hpast
  · rw [heq]
    exact hlater.lock.keeps hnow

omit [DecidableEq π] in
theorem Backed.later (h : s.Backed c wire) (hpresent : s.past s.time = s.moment)
    (hlater : s.Later s') : s'.Backed c wire := by
  match wire, h with
  | .lockReply (.ok true), hkeeps | .readSent, hkeeps => exact hlater.lock.keeps hkeeps
  | .reading started result, ⟨htime, hkept, hread⟩ =>
    have hnow : s.lock.Keeps c := by
      have hlast := hkept s.time htime le_rfl
      rwa [hpresent] at hlast
    refine ⟨htime.trans hlater.time_le, hkept.later hlater hnow, ?_⟩
    rw [ReadsAt, hlater.past _ htime]
    exact hread
  | .readReply (.ok query), hread => exact ReadHolding.later hread hlater
  | .idle, _ | .lockSent, _ | .lockReply (.ok false), _ | .lockReply (.error _), _
  | .readReply (.error _), _ => trivial

omit [DecidableEq π] [DecidableEq σ] in
/-- A query on a live session has held the lock at every time since it began. -/
theorem Safe.held (h : s.Safe) {first : Nat} (hlive : s.lock.status c = .live)
    (hkept : s.KeptSince c first s.time) (t : Nat) (ht : first ≤ t) (ht' : t ≤ s.time) :
    (s.past t).lock.holder = some c := by
  obtain ⟨hopened, hheld⟩ := hkept t ht ht'
  cases hstatus : (s.past t).lock.status c with
  | unopened => exact absurd hstatus hopened
  | live => exact hheld hstatus
  | ended =>
    have hended := h.recorded.ended t s.time ht' le_rfl c hstatus
    rw [h.recorded.present] at hended
    cases hended.symm.trans hlive

omit [DecidableEq π] in
/-- **The server on a statement.** -/
theorem Safe.executed {outcome : Except String Unit} {reply : Wire} (h : s.Safe)
    (hlater : s.Later s') (hlive : s.lock.status c = .live)
    (hstep : s.Executed c outcome (s.wire c) reply s'.lock) :
    s'.Backed c reply := by
  have hbacked := h.wire c
  generalize s.wire c = sent at hstep hbacked
  generalize hlock : s'.lock = lock at hstep
  cases hstep with
  | lock =>
    cases hgrants : s.lock.grants c with
    | true =>
      show s'.lock.Keeps c
      rw [hlock]
      exact SessionLock.keeps_tryLock hlive hgrants
    | false => trivial
  | lockFails error => trivial
  | readBegins =>
    -- the statement was sent on the session of a lease
    have hnow : s.lock.Keeps c := hbacked
    have hpast : s.KeptSince c s.time s.time := by
      intro t ht ht'
      rw [le_antisymm ht' ht, h.recorded.present]
      exact hnow
    refine ⟨hlater.time_le, hpast.later hlater hnow, ?_⟩
    rw [ReadsAt, hlater.past _ le_rfl, h.recorded.present]
    rfl
  | readEnds started result =>
    obtain ⟨htime, hkept, hread⟩ := hbacked
    refine ReadHolding.later ⟨htime, le_rfl, fun t ht ht' => ?_, hread⟩ hlater
    exact h.held hlive hkept t ht ht'
  | readFails sent error => trivial

omit [DecidableEq π] in
theorem Safe.wire_step (h : s.Safe) (hlater : s.Later s'.record) (hstep : s.WireStep s' c) :
    s'.record.Backed c (s'.wire c) := by
  cases hstep with
  | stays hwire =>
    rw [hwire]
    exact (h.wire c).later h.recorded.present hlater
  | idle hwire | lockSent _ hwire =>
    rw [hwire]
    trivial
  | readSent p lease hphase hsession hwire =>
    rw [hwire]
    have hacquired := h.credited.lease p lease (by rw [hphase]; rfl)
    rw [hsession] at hacquired
    exact hlater.lock.keeps (h.credited.granted p c hacquired)
  | executed outcome hlive hexecuted => exact h.executed hlater hlive hexecuted

omit [DecidableEq π] in
/-- A snapshot is passed on under a lease. -/
theorem Safe.replaced_step {replaced : List (Replacement π σ)} {r : Replacement π σ}
    (h : s.Safe) (hlater : s.Later s') (hstep : s.Replaces replaced) (hr : r ∈ replaced) :
    (r.process, r.session) ∈ s.acquired ∧ r.query.result = .ok r.snapshot ∧
      s'.ReadHolding r.session r.query := by
  cases hstep with
  | one p lease query snapshot hlease hwire hresult =>
    rw [List.mem_append, List.mem_singleton] at hr
    obtain hold | rfl := hr
    · obtain ⟨hacquired, hrest, hread⟩ := h.credited.replaced r hold
      exact ⟨hacquired, hrest, hread.later hlater⟩
    · have hbacked := h.wire lease.connection.session
      rw [hwire] at hbacked
      exact ⟨h.credited.lease p lease hlease, hresult, ReadHolding.later hbacked hlater⟩

/-- **What is reported, and by whom.** -/
theorem Safe.credited_step (h : s.Safe) (hlater : s.Later s'.record) (hstep : s.Reports s') :
    s'.record.Credited := by
  obtain ⟨hgranted, hlease, honce, hfound, hreplaced⟩ := h.credited
  have hkeeps : ∀ p c, (p, c) ∈ s.acquired → s'.lock.Keeps c :=
    fun p c hacquired => hlater.lock.keeps (hgranted p c hacquired)
  have hread : ∀ r ∈ s.replaced, (r.process, r.session) ∈ s.acquired ∧
      r.query.result = .ok r.snapshot ∧ s'.record.ReadHolding r.session r.query :=
    fun r hr => ⟨(hreplaced r hr).1, (hreplaced r hr).2.1, (hreplaced r hr).2.2.later hlater⟩
  cases hstep with
  | keeps hacq hrep hlease' hseeks =>
    have hmem : ∀ p c, (p, c) ∈ s'.acquired ↔ (p, c) ∈ s.acquired := by
      intro p c
      rw [hacq]
    refine ⟨fun p c hc => hkeeps p c ((hmem p c).mp hc),
      fun p lease hp => (hmem _ _).mpr (hlease p lease (hlease' p lease hp)),
      fun p c d hc hd => honce p c d ((hmem p c).mp hc) ((hmem p d).mp hd), fun p c hc => ?_,
      fun r hr => ?_⟩
    · have hnot := hfound p c ((hmem p c).mp hc)
      exact eq_false_of_ne_true fun hs => ne_true_of_eq_false hnot (hseeks p hs)
    · show (r.process, r.session) ∈ s'.acquired ∧ _
      rw [hacq]
      have hr' : r ∈ s'.replaced := hr
      obtain hrep | hrep := hrep
      · rw [hrep] at hr'
        exact hread r hr'
      · exact h.replaced_step hlater hrep hr'
  | leads p k hlocking hwire hacq hrep hphase =>
    have hmem : ∀ q c, (q, c) ∈ s'.acquired ↔ (q, c) ∈ s.acquired ∨ q = p ∧ c = k.session := by
      intro q c
      rw [hacq, List.mem_append, List.mem_singleton, Prod.mk.injEq]
    -- the worker has been in the acquiring call
    have hfirst : ∀ c, (p, c) ∉ s.acquired := by
      intro c hc
      have hnot := hfound p c hc
      rw [hlocking] at hnot
      cases hnot
    have hgrant : s.lock.Keeps k.session := by
      have hbacked := h.wire k.session
      rwa [hwire] at hbacked
    refine ⟨fun q c hc => ?_, fun q lease hq => ?_, fun q c d hc hd => ?_, fun q c hc => ?_,
      fun r hr => ?_⟩
    · obtain hold | ⟨rfl, rfl⟩ := (hmem q c).mp hc
      · exact hkeeps q c hold
      · exact hlater.lock.keeps hgrant
    · have hq' : (s'.phase q).lease = some lease := hq
      rw [hphase] at hq'
      refine (hmem _ _).mpr ?_
      rcases eq_or_ne q p with rfl | hne
      · rw [Function.update_self] at hq'
        obtain rfl := Option.some.inj hq'
        exact .inr ⟨rfl, rfl⟩
      · rw [Function.update_of_ne hne] at hq'
        exact .inl (hlease q lease hq')
    · obtain hc' | ⟨rfl, rfl⟩ := (hmem q c).mp hc <;> obtain hd' | ⟨hqp, rfl⟩ := (hmem q d).mp hd
      · exact honce q c d hc' hd'
      · exact absurd (hqp ▸ hc') (hfirst c)
      · exact absurd hd' (hfirst d)
      · rfl
    · show (s'.phase q).seeks = false
      rw [hphase]
      obtain hold | ⟨rfl, rfl⟩ := (hmem q c).mp hc
      · have hne : q ≠ p := fun hq => hfirst c (hq ▸ hold)
        rw [Function.update_of_ne hne]
        exact hfound q c hold
      · rw [Function.update_self]
        rfl
    · have hr' : r ∈ s'.replaced := hr
      rw [hrep] at hr'
      obtain ⟨hacquired, hrest⟩ := hread r hr'
      exact ⟨(hmem _ _).mpr (.inl hacquired), hrest⟩

theorem Safe.step (h : s.Safe) (hstep : s.step a = some s') : s'.Safe := by
  obtain ⟨s₁, hact, rfl⟩ := Option.map_eq_some_iff.mp hstep
  have hlater := later_record hact
  obtain ⟨-, -, hwire, hhandover, hreports⟩ := act_effect hact
  have howned : s₁.Owned := h.owned.handover hhandover
  exact ⟨h.recorded.later hlater, howned, fun c => h.wire_step hlater (hwire c),
    h.credited_step hlater hreports⟩

theorem safe_of_execution {database : Database} {now : Int}
    (run : Execution (step (π := π) (σ := σ)) anyAction (start database now) s) : s.Safe :=
  run.invariant (safe_start database now) fun _ _ _ _ hsafe _ hstep => hsafe.step hstep

omit [DecidableEq π] [DecidableEq σ] in
/-- Of the leases on live sessions there is one at most. -/
theorem Safe.one_leader {lease lease' : QueueStateCollectorLease σ} (h : s.Safe)
    (hp : (s.phase p).lease = some lease) (hq : (s.phase q).lease = some lease')
    (hlive : s.lock.status lease.connection.session = .live)
    (hlive' : s.lock.status lease'.connection.session = .live) : p = q := by
  have hkeeps := h.credited.granted _ _ (h.credited.lease p lease hp)
  have hkeeps' := h.credited.granted _ _ (h.credited.lease q lease' hq)
  have hsame := hkeeps.unique hkeeps' hlive hlive'
  refine h.owned.unique (c := lease.connection.session)
    (CollectorPhase.session_of_connection (CollectorPhase.connection_of_lease hp)) ?_
  rw [hsame]
  exact CollectorPhase.session_of_connection (CollectorPhase.connection_of_lease hq)

omit [DecidableEq π] [DecidableEq σ] in
/-- What was read holding the lock was read before the session ended. -/
theorem Safe.finished_lt (h : s.Safe) (hread : s.ReadHolding c query) {t : Nat}
    (hended : (s.past t).lock.status c = .ended) : query.finished < t := by
  obtain ⟨hle, htime, hheld, -⟩ := hread
  by_contra hafter
  have hgone := h.recorded.ended t query.finished (Nat.le_of_not_lt hafter) htime c hended
  have hlive := h.recorded.lock query.finished htime c (hheld _ hle le_rfl)
  rw [hgone] at hlive
  cases hlive

/-- **One leader.**  At most one lease has a live session.  Every snapshot that was passed to
    `replace` is the result of a query that its process executed on the session of its lease,
    while that session held the lock; and a process whose session has ended executes no other
    query, on that session or on another one. -/
theorem leadership {database : Database} {now : Int}
    (run : Execution (step (π := π) (σ := σ)) anyAction (start database now) s) :
    (∀ p q lease lease', (s.phase p).lease = some lease → (s.phase q).lease = some lease' →
      s.lock.status lease.connection.session = .live →
      s.lock.status lease'.connection.session = .live → p = q) ∧
    ∀ r ∈ s.replaced, (r.process, r.session) ∈ s.acquired ∧ r.query.result = .ok r.snapshot ∧
      s.ReadHolding r.session r.query ∧
      ∀ c t, (r.process, c) ∈ s.acquired → (s.past t).lock.status c = .ended →
        r.query.finished < t := by
  have hsafe := safe_of_execution run
  refine ⟨fun p q lease lease' hp hq => hsafe.one_leader hp hq, fun r hr => ?_⟩
  obtain ⟨hacquired, hresult, hread⟩ := hsafe.credited.replaced r hr
  refine ⟨hacquired, hresult, hread, fun c t hc hended => ?_⟩
  rw [hsafe.credited.once r.process c r.session hc hacquired] at hended
  exact hsafe.finished_lt hread hended

/-- The second process takes over when the session of the first one is lost; the reply that had
    been sent by then still arrives. -/
def failover : List (CollectorAction Nat Nat) :=
  [.tick 0, .connect 0 0, .execute 0 (.ok ()), .receive 0,
    .tick 1, .connect 1 1, .execute 1 (.ok ()), .receive 1,
    .tick 0, .execute 0 (.ok ()), .commit .empty 5, .execute 0 (.ok ()), .lose 0, .receive 0,
    .tick 1, .connect 1 1, .execute 1 (.ok ()), .receive 1,
    .tick 0, .sever 0 "connection reset by peer",
    .tick 1, .execute 1 (.ok ()), .execute 1 (.ok ()), .receive 1]

theorem leadership_failover : ∃ s : Collectors Nat Nat,
    runAllowed step anyAction (start .empty 0) failover = some s ∧
      (s.replaced.map fun r => (r.process, r.query.started, r.query.finished)) =
        [(0, 9, 11), (1, 21, 22)] ∧ (s.past 13).lock.status 0 = .ended ∧
      (∀ p q lease lease', (s.phase p).lease = some lease → (s.phase q).lease = some lease' →
        s.lock.status lease.connection.session = .live →
        s.lock.status lease'.connection.session = .live → p = q) ∧
      ∀ r ∈ s.replaced, s.ReadHolding r.session r.query := by
  have hrun : (runAllowed step anyAction (start .empty 0) failover).map (fun s =>
      (s.replaced.map fun r => (r.process, r.query.started, r.query.finished),
        (s.past 13).lock.status 0)) = some ([(0, 9, 11), (1, 21, 22)], .ended) := by
    decide +kernel
  obtain ⟨s, hs, hseen⟩ := Option.map_eq_some_iff.mp hrun
  obtain ⟨hreplaced, hended⟩ := Prod.mk.injEq .. ▸ hseen
  obtain ⟨hone, hread⟩ := leadership (execution_of_runAllowed hs)
  exact ⟨s, hs, hreplaced, hended, hone, fun r hr => (hread r hr).2.2.1⟩

end Safe

end Collectors

end Retsu
