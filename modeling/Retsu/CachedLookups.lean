/-
  Calls at the same time: what a look-up may answer.

  `Service.read` answers a look-up with what the table held at this moment or at an earlier one.
  This file shows that the chain of caches does no more: whatever it answers, PostgreSQL would
  have answered at some moment of the run.  A queue keeps its name, so a name that it answers is
  the name of the queue at this moment too, although the names in a process never expire.
-/
import Retsu.CacheStaleness

namespace Retsu

open Relational Concurrency

variable {config : CacheConfig} {s s' t : ChainState} {id : Nat} {c c' : MetadataCall}
  {op : MetadataOp} {response : MetadataResponse} {queueId : Uuid} {name : String}

/-! ## Answers -/

/-- The queue has this name now. -/
def ChainState.Names (s : ChainState) (queueId : Uuid) (name : String) : Prop :=
  (s.db.details queueId).map (·.name) = some name

/-- A read answers what the database had at some moment, or it has failed; a name that L1 keeps of
    an answer is the name of its queue. -/
structure ChainState.Sound (s : ChainState) (op : MetadataOp) (response : MetadataResponse) :
    Prop where
  read : op.isRead = true → (∃ error, response = .failed error) ∨
    ∃ n ≤ s.time, response = op.answer (s.past n op.queueId)
  name : ∀ queueId name, op.remembers response = some (queueId, name) → s.Names queueId name

/-- What the await a call is at says of its answer. -/
def ChainState.Telling (s : ChainState) (c : MetadataCall) : Prop :=
  match c.phase with
  | .joined loader => ∃ d, s.calls loader = some d ∧ d.op = c.op
  | .writeThrough response _ | .returning response | .done response => s.Sound c.op response
  | _ => True

structure ChainState.Named (s : ChainState) : Prop where
  /-- A queue keeps its name. -/
  kept : ∀ n ≤ s.time, ∀ queueId name,
    (s.past n queueId).map (·.name) = some name → s.Names queueId name
  memory : ∀ process queueId name, s.names process queueId = some name → s.Names queueId name
  loading : ∀ process queueId loader, s.loaders process queueId = some loader →
    ∃ d, s.calls loader = some d ∧ d.op = .queueName queueId
  calls : ∀ id c, s.calls id = some c → s.Telling c

theorem ChainState.Sound.failed {error : MetadataError} : s.Sound op (.failed error) where
  read _ := Or.inl ⟨error, rfl⟩
  name queueId name h := by cases op <;> simp [MetadataOp.remembers] at h

/-- What the database had is a sound answer, of a read and of any other call. -/
theorem ChainState.Sound.of_past {n : Nat} (hkept : ∀ queueId name,
    (s.past n queueId).map (·.name) = some name → s.Names queueId name) (hn : n ≤ s.time) :
    s.Sound op (op.answer (s.past n op.queueId)) where
  read _ := Or.inr ⟨n, hn, rfl⟩
  name queueId name h := by
    cases op with
    | queueName q =>
      cases hpast : s.past n q with
      | none => simp [MetadataOp.answer, MetadataOp.queueId, hpast, MetadataOp.remembers] at h
      | some details =>
        simp only [MetadataOp.answer, MetadataOp.queueId, hpast, Option.map_some,
          MetadataOp.remembers, Option.some.injEq, Prod.mk.injEq] at h
        obtain ⟨rfl, rfl⟩ := h
        exact hkept q details.name (by rw [hpast]; rfl)
    | createQueue | queueDetails | updateQueue => simp [MetadataOp.answer, MetadataOp.remembers] at h

/-- L1 tells what it gets, and a failure as one of its own. -/
theorem ChainState.Sound.outer (h : s.Sound op response) : s.Sound op (op.outer response) := by
  by_cases hsame : op.outer response = response
  · rwa [hsame]
  · obtain ⟨error, herror⟩ : ∃ error, op.outer response = .failed error := by
      unfold MetadataOp.outer at hsame ⊢
      split
      · exact ⟨_, rfl⟩
      · rename_i hother
        exact absurd (by split <;> first | rfl | exact absurd rfl (hother _ _ rfl)) hsame
    rw [herror]
    exact .failed

/-! ## What a step keeps -/

/-- One step later; no queue has lost its name, and no call its operation. -/
structure ChainState.Continues (s s' : ChainState) : Prop where
  time : s'.time = s.time + 1
  past : ∀ n ≤ s.time, s'.past n = s.past n
  now : s'.past s'.time = s'.db.details
  names : ∀ queueId name, s.Names queueId name → s'.Names queueId name
  calls : ∀ id c, s.calls id = some c → ∃ c', s'.calls id = some c' ∧ c'.op = c.op

theorem ChainState.Sound.mono (h : s.Sound op response) (hcontinues : s.Continues s') :
    s'.Sound op response where
  read hread := by
    refine (h.read hread).imp_right ?_
    rintro ⟨n, hn, hresponse⟩
    have htime := hcontinues.time
    exact ⟨n, by omega, by rw [hcontinues.past n hn, hresponse]⟩
  name queueId name hremembers := hcontinues.names queueId name (h.name queueId name hremembers)

theorem ChainState.Telling.mono (h : s.Telling c) (hcontinues : s.Continues s') :
    s'.Telling c := by
  unfold ChainState.Telling at h ⊢
  split at h
  · obtain ⟨d, hd, hop⟩ := h
    obtain ⟨d', hd', hsame⟩ := hcontinues.calls _ d hd
    exact ⟨d', hd', hsame.trans hop⟩
  · exact h.mono hcontinues
  · exact h.mono hcontinues
  · exact h.mono hcontinues
  · trivial

/-- The names of a later state are those of all moments so far. -/
theorem ChainState.Named.kept_later (h : s.Named) (hcontinues : s.Continues s') :
    ∀ n ≤ s'.time, ∀ queueId name,
      (s'.past n queueId).map (·.name) = some name → s'.Names queueId name := by
  intro n hn queueId name hname
  have htime := hcontinues.time
  by_cases hnow : n = s'.time
  · rw [hnow, hcontinues.now] at hname
    exact hname
  · have hbefore : n ≤ s.time := by omega
    rw [hcontinues.past n hbefore] at hname
    exact hcontinues.names queueId name (h.kept n hbefore queueId name hname)

/-- **One step later the answers are still sound**: the names that have been kept, the loads that
    have started and the calls that have moved are accounted for. -/
theorem ChainState.Named.extend (h : s.Named) (hcontinues : s.Continues s')
    (hmemory : ∀ process queueId name, s'.names process queueId = some name →
      s.names process queueId = some name ∨ s'.Names queueId name)
    (hloading : ∀ process queueId loader, s'.loaders process queueId = some loader →
      s.loaders process queueId = some loader ∨
        ∃ d, s'.calls loader = some d ∧ d.op = .queueName queueId)
    (hcalls : ∀ id c', s'.calls id = some c' → s.calls id = some c' ∨ s'.Telling c') :
    s'.Named where
  kept := h.kept_later hcontinues
  memory process queueId name hname := by
    rcases hmemory process queueId name hname with hold | hnew
    · exact hcontinues.names queueId name (h.memory process queueId name hold)
    · exact hnew
  loading process queueId loader hloader := by
    rcases hloading process queueId loader hloader with hold | hnew
    · obtain ⟨d, hd, hop⟩ := h.loading process queueId loader hold
      obtain ⟨d', hd', hsame⟩ := hcontinues.calls loader d hd
      exact ⟨d', hd', hsame.trans hop⟩
    · exact hnew
  calls id c' hc' := by
    rcases hcalls id c' hc' with hold | hnew
    · exact (h.calls id c' hold).mono hcontinues
    · exact hnew

/-! ## Steps outside of calls -/

theorem ChainState.Named.start {db : Database} : (ChainState.start db).Named where
  kept n _ queueId name hname := hname
  memory process queueId name hname := by simp [ChainState.start] at hname
  loading process queueId loader hloader := by simp [ChainState.start] at hloader
  calls id c hc := by simp [ChainState.start] at hc

/-- Time passes, or an entry goes. -/
theorem ChainState.Named.environment (h : s.Named) {a : ChainAction} (ha : a.environment = true)
    (hstep : s.step config a = some s') : s'.Named := by
  obtain ⟨t, hact, rfl⟩ := step_eq_some hstep
  obtain ⟨hdb, hcalls, hloaders, hshrinks⟩ := environment_shrinks ha hact
  obtain ⟨htime, hpast⟩ : t.time = s.time ∧ t.past = s.past := by
    cases a <;> first | exact Option.some.inj hact ▸ ⟨rfl, rfl⟩ | simp [ChainAction.environment] at ha
  refine h.extend ⟨congrArg (· + 1) htime, fun n hn => ?_, if_pos rfl, fun q name hname => ?_,
    fun id c hc => ⟨c, by rw [← hc, ← hcalls]; rfl, rfl⟩⟩ (fun p q name hname => Or.inl ?_)
    (fun p q loader hloader => Or.inl ?_) fun id c hc => Or.inl ?_
  · show (if n = t.time + 1 then _ else t.past n) = _
    rw [htime, if_neg (by omega), hpast]
  · show (t.db.details q).map _ = _
    rw [hdb]
    exact hname
  · replace hname : t.names p q = some name := hname
    rcases hshrinks.names p q with hsame | hgone
    · rwa [hsame] at hname
    · simp [hgone] at hname
  · rw [← hloader, ← hloaders]
    rfl
  · rw [← hc, ← hcalls]
    rfl

/-- A call that has asked nobody yet says nothing. -/
theorem ChainState.Telling.first (hphase : c.phase = config.firstPhase c.process c.op ∨
    c.phase = config.sourcePhase c.op) : s.Telling c := by
  have hcases : c.phase = .lookup ∨ c.phase = .get ∨ ∃ query, c.phase = .database query := by
    have hsource : ∀ op : MetadataOp,
        config.sourcePhase op = .get ∨ ∃ query, config.sourcePhase op = .database query := by
      intro op
      cases op with
      | createQueue | updateQueue => exact Or.inr ⟨_, rfl⟩
      | queueName | queueDetails =>
        simp only [CacheConfig.sourcePhase]
        split
        · exact Or.inl rfl
        · exact Or.inr ⟨_, rfl⟩
    rcases hphase with hphase | hphase
    · rw [hphase]
      cases c.op with
      | queueName q =>
        simp only [CacheConfig.firstPhase]
        split
        · exact Or.inl rfl
        · exact Or.inr (hsource _)
      | createQueue queue => exact Or.inr (hsource (.createQueue queue))
      | queueDetails q => exact Or.inr (hsource (.queueDetails q))
      | updateQueue q configuration => exact Or.inr (hsource (.updateQueue q configuration))
    · rw [hphase]
      exact Or.inr (hsource _)
  unfold ChainState.Telling
  rcases hcases with hphase | hphase | ⟨query, hphase⟩ <;> simp [hphase]

/-- A call starts. -/
theorem ChainState.Named.begin (h : s.Named) (hnew : s.calls id = none) (process : Nat)
    (op : MetadataOp) : (s.begin config id process op).advance.Named := by
  have hpast : ∀ n ≤ s.time, (s.begin config id process op).advance.past n = s.past n :=
    fun n hn => if_neg (Nat.ne_of_lt (Nat.lt_succ_of_le hn))
  refine h.extend ⟨rfl, hpast, if_pos rfl, fun _ _ hname => hname,
    fun other c hc => ⟨c, ?_, rfl⟩⟩ (fun _ _ _ => Or.inl) (fun _ _ _ => Or.inl) fun other c' hc' => ?_
  · have hne : other ≠ id := by
      rintro rfl
      rw [hnew] at hc
      simp at hc
    exact (if_neg hne).trans hc
  · by_cases hid : other = id
    · obtain rfl := Option.some.inj ((if_pos hid).symm.trans hc')
      exact Or.inr (.first (Or.inl rfl))
    · exact Or.inl ((if_neg hid).symm.trans hc')

/-! ## Awaits -/

/-- A call moves. -/
theorem ChainState.Named.moves (h : s.Named) (hc : s.calls id = some c)
    (hcalls : t.calls = s.calls) (htime : t.time = s.time) (hpast : t.past = s.past)
    (hdb : ∀ queueId name, s.Names queueId name → t.Names queueId name) (hop : c'.op = c.op)
    (hmemory : ∀ process queueId name, t.names process queueId = some name →
      s.names process queueId = some name ∨ s.Names queueId name)
    (hloading : ∀ process queueId loader, t.loaders process queueId = some loader →
      s.loaders process queueId = some loader ∨ (loader = id ∧ c.op = .queueName queueId))
    (htelling : s.Continues (t.setCall id c').advance →
      (∀ queueId, (t.setCall id c').advance.past (s.time + 1) queueId = t.db.details queueId) →
      (t.setCall id c').advance.Telling c') :
    (t.setCall id c').advance.Named := by
  have hself : (t.setCall id c').advance.calls id = some c' := if_pos rfl
  have hnow : (t.setCall id c').advance.past (s.time + 1) = t.db.details :=
    if_pos (congrArg (· + 1) htime.symm)
  have hcontinues : s.Continues (t.setCall id c').advance := by
    refine ⟨congrArg (· + 1) htime, fun n hn => ?_, if_pos rfl, hdb, fun other d hd => ?_⟩
    · show (if n = t.time + 1 then _ else t.past n) = _
      rw [htime, if_neg (by omega), hpast]
    · by_cases hid : other = id
      · subst hid
        obtain rfl := Option.some.inj (hc.symm.trans hd)
        exact ⟨c', hself, hop⟩
      · exact ⟨d, (if_neg hid).trans (hcalls ▸ hd), rfl⟩
  refine h.extend hcontinues (fun p q name hname => ?_) (fun p q loader hloader => ?_)
    fun other d hd => ?_
  · exact (hmemory p q name hname).imp_right (hdb q name)
  · refine (hloading p q loader hloader).imp_right ?_
    rintro ⟨rfl, hname⟩
    exact ⟨c', hself, hop.trans hname⟩
  · by_cases hid : other = id
    · obtain rfl := Option.some.inj ((if_pos hid).symm.trans hd)
      exact Or.inr (htelling hcontinues (congrFun hnow))
    · exact Or.inl (hcalls ▸ (if_neg hid).symm.trans hd)

/-- Where a statement of a call leads. -/
theorem ChainState.Telling.queried {db db' : Database} {query : MetadataOp} {n : Nat}
    {next : MetadataResponse → CallPhase} (heffect : MetadataEffect db query response db')
    (hqueries : c.Queries config query next)
    (hquery : query = c.op ∨ query = .queueDetails c.op.queueId)
    (hkept : ∀ queueId name, (s.past n queueId).map (·.name) = some name → s.Names queueId name)
    (hn : n ≤ s.time) (hpast : ∀ queueId, s.past n queueId = db'.details queueId)
    (hop : c'.op = c.op) (hphase : c'.phase = next response) : s.Telling c' := by
  have hreturning : ∀ response', c'.phase = .returning response' → s.Sound c'.op response' →
      s.Telling c' := by
    intro response' hphase' hsound
    simp only [ChainState.Telling, hphase']
    exact hsound
  have hwriteThrough : ∀ response' details, c'.phase = .writeThrough response' details →
      s.Sound c'.op response' → s.Telling c' := by
    intro response' details hphase' hsound
    simp only [ChainState.Telling, hphase']
    exact hsound
  have hanswer : s.Sound c'.op (c'.op.answer (s.past n c'.op.queueId)) := .of_past hkept hn
  rw [hpast] at hanswer
  cases hqueries with
  | load hthis =>
    cases heffect with
    | failed => exact hreturning _ hphase .failed
    | details =>
      have hsilent : ∀ value, c'.phase = .populate value → s.Telling c' := by
        intro value hphase'
        simp only [ChainState.Telling, hphase']
      cases hdetails : db.details c.op.queueId with
      | none => exact hsilent .missing (by rw [hphase, hdetails]; rfl)
      | some details => exact hsilent (.found details) (by rw [hphase, hdetails]; rfl)
  | database hthis =>
    rw [← hop] at hquery hphase
    cases heffect with
    | @failed _ error =>
      have hsame : config.afterDatabase c'.op (.failed error) = .returning (.failed error) := by
        cases c'.op <;> rfl
      exact hreturning _ (hphase.trans hsame) .failed
    | details =>
      have hsame : ∀ details, config.afterDatabase c'.op (.queueDetails details) =
          .returning (c'.op.answer details) := by
        intro details
        cases c'.op <;> rfl
      refine hreturning _ (hphase.trans (hsame _)) ?_
      rcases hquery with hown | hread
      · rw [← hown] at hanswer ⊢
        exact hanswer
      · rw [MetadataOp.queueDetails.inj hread]
        exact hanswer
    | @name q =>
      have hown := hquery.resolve_right (by simp)
      rw [← hown] at hanswer
      exact hreturning _ (hphase.trans (by rw [← hown]; rfl)) (hown ▸ hanswer)
    | @alreadyExists queue =>
      have hown := hquery.resolve_right (by simp)
      refine hreturning _ (hphase.trans (by rw [← hown]; rfl)) ⟨fun hread => ?_, fun _ _ hname => ?_⟩
      · rw [← hown] at hread
        simp [MetadataOp.isRead] at hread
      · rw [← hown] at hname
        simp [MetadataOp.remembers] at hname
    | @missing q configuration =>
      have hown := hquery.resolve_right (by simp)
      refine hreturning _ (hphase.trans (by rw [← hown]; rfl)) ⟨fun hread => ?_, fun _ _ hname => ?_⟩
      · rw [← hown] at hread
        simp [MetadataOp.isRead] at hread
      · rw [← hown] at hname
        simp [MetadataOp.remembers] at hname
    | @created queue _ hnew hdetails =>
      have hown := hquery.resolve_right (by simp)
      have hsound : s.Sound c'.op (.createQueue .created) := by
        rw [← hown]
        refine ⟨fun hread => by simp [MetadataOp.isRead] at hread, fun q name hname => ?_⟩
        obtain ⟨rfl, rfl⟩ := Prod.mk.inj (Option.some.inj hname)
        refine hkept _ _ ?_
        rw [hpast, hdetails, Function.update_self]
        rfl
      rw [← hown] at hphase
      by_cases hdistributed : config.distributed = true
      · exact hwriteThrough _ queue.details (hphase.trans (if_pos hdistributed)) hsound
      · exact hreturning _ (hphase.trans (if_neg hdistributed)) hsound
    | @updated q configuration old new _ hold hid hname hdetails =>
      have hown := hquery.resolve_right (by simp)
      have hsound : s.Sound c'.op (.updateQueue (some new)) := by
        rw [← hown]
        refine ⟨fun hread => by simp [MetadataOp.isRead] at hread, fun q name hremembers => ?_⟩
        obtain ⟨rfl, rfl⟩ := Prod.mk.inj (Option.some.inj hremembers)
        refine hkept _ _ ?_
        rw [hpast, hdetails, hid, Function.update_self]
        rfl
      rw [← hown] at hphase
      by_cases hdistributed : config.distributed = true
      · exact hwriteThrough _ new (hphase.trans (if_pos hdistributed)) hsound
      · exact hreturning _ (hphase.trans (if_neg hdistributed)) hsound

/-- No load starts when a call ends. -/
theorem ChainState.finish_loaders {process loader : Nat}
    (h : (s.finish config id c response).loaders process queueId = some loader) :
    s.loaders process queueId = some loader := by
  have hremember : (s.remember c response).loaders = s.loaders := by
    unfold ChainState.remember
    split <;> rfl
  unfold ChainState.finish at h
  split at h
  · replace h : ((s.remember c response).endLoad c).loaders process queueId = some loader := h
    unfold ChainState.endLoad at h
    split at h
    · replace h := (Option.ite_none_left_eq_some.mp h).2
      rwa [hremember] at h
    · rwa [hremember] at h
  · exact h

/-- What L1 keeps of a sound answer, and what it tells. -/
theorem ChainState.Named.finishes (h : s.Named) (hc : s.calls id = some c)
    (hsound : s.Sound c.op response) : (s.finish config id c response).advance.Named := by
  obtain ⟨names, loaders, answer, hfinish, hanswer, hnames, -⟩ := finish_eq config s id c response
  have hloaders : ∀ p q loader, loaders p q = some loader → s.loaders p q = some loader := by
    intro p q loader hloader
    have hkept : (s.finish config id c response).loaders p q = some loader := by
      rw [hfinish]
      exact hloader
    exact ChainState.finish_loaders hkept
  rw [hfinish]
  refine h.moves hc (t := { s with names, loaders }) rfl rfl rfl (fun _ _ hname => hname) rfl
    (fun p q name hname => ?_) (fun p q loader hloader => Or.inl (hloaders p q loader hloader))
    fun hcontinues _ => ?_
  · replace hname : names p q = some name := hname
    rcases hnames p q with hsame | ⟨new, hremembers, hnew⟩
    · exact Or.inl (hsame ▸ hname)
    · obtain rfl := Option.some.inj (hnew.symm.trans hname)
      exact Or.inr (hsound.name q new hremembers)
  · show ChainState.Sound _ c.op answer
    rcases hanswer with rfl | rfl
    · exact hsound.mono hcontinues
    · exact (hsound.mono hcontinues).outer

/-- What a call is about to cache is what it is about to answer. -/
theorem MetadataCall.Writes.sound {value : CachedQueueDetails}
    (hwrites : c.Writes queueId value response) (h : s.Named) (htraced : s.Traced)
    (hc : s.calls id = some c) : s.Sound c.op response := by
  have hreached := htraced.reached id c hc
  have htelling := h.calls id c hc
  cases hwrites with
  | populate hphase =>
    simp only [ChainState.Reached, hphase] at hreached
    obtain ⟨-, -, m, hm, hdetails⟩ := hreached
    have hbefore := ((htraced.ordered id c hc).database m hm).2
    exact hdetails ▸ .of_past (h.kept _ hbefore) hbefore
  | writeThrough hphase =>
    simp only [ChainState.Telling, hphase] at htelling
    exact htelling

/-- **Every await keeps the answers sound.** -/
theorem ChainState.Named.awaited (h : s.Named) (htraced : s.Traced) (hc : s.calls id = some c)
    {outcome : AwaitOutcome} (hstep : AwaitStep config s id c outcome t) : t.advance.Named := by
  have hreached := htraced.reached id c hc
  have htelling := h.calls id c hc
  -- an await that changes nothing that is kept
  have hmoves : ∀ c' : MetadataCall, c'.op = c.op →
      (∀ u : ChainState, s.Continues u → u.Telling c') → (s.setCall id c').advance.Named :=
    fun c' hop htells => h.moves hc rfl rfl rfl (fun _ _ hname => hname) hop (fun _ _ _ => Or.inl)
      (fun _ _ _ => Or.inl) fun hcontinues _ => htells _ hcontinues
  cases hstep with
  | @known name hphase hname =>
    simp only [ChainState.Reached, hphase] at hreached
    obtain ⟨-, q, hop⟩ := hreached
    have hnow := h.memory _ _ name hname
    refine hmoves _ rfl fun u hcontinues => ?_
    show u.Sound c.op _
    have hsound : s.Sound c.op (c.op.answer (s.past s.time c.op.queueId)) :=
      .of_past (h.kept _ (Nat.le_refl _)) (Nat.le_refl _)
    have hanswer : c.op.answer (s.past s.time c.op.queueId) = .queueName (some name) := by
      rw [htraced.now]
      rw [hop] at hnow ⊢
      exact congrArg MetadataResponse.queueName hnow
    exact hanswer ▸ hsound.mono hcontinues
  | @joins loader hphase hname hloader =>
    simp only [ChainState.Reached, hphase] at hreached
    obtain ⟨-, q, hop⟩ := hreached
    obtain ⟨d, hd, hdop⟩ := h.loading _ _ loader hloader
    refine hmoves _ rfl fun u hcontinues => ?_
    obtain ⟨d', hd', hsame⟩ := hcontinues.calls loader d hd
    refine ⟨d', hd', hsame.trans (hdop.trans ?_)⟩
    rw [hop]
    rfl
  | loads hphase hname hloader =>
    simp only [ChainState.Reached, hphase] at hreached
    obtain ⟨-, q, hop⟩ := hreached
    refine h.moves hc (t := s.setLoader c.process c.op.queueId (some id)) rfl rfl rfl
      (fun _ _ hname => hname) rfl (fun _ _ _ => Or.inl) (fun p other loader hstarted => ?_)
      fun _ _ => .first (Or.inr rfl)
    by_cases hthis : p = c.process ∧ other = c.op.queueId
    · obtain rfl := Option.some.inj ((if_pos hthis).symm.trans hstarted)
      refine Or.inr ⟨rfl, ?_⟩
      rw [hthis.2, hop]
      rfl
    · exact Or.inl ((if_neg hthis).symm.trans hstarted)
  | @shared loader d response hphase hloader hdone =>
    simp only [ChainState.Telling, hphase] at htelling
    obtain ⟨d', hd', hop⟩ := htelling
    obtain rfl := Option.some.inj (hloader.symm.trans hd')
    have hsound := h.calls loader d hloader
    simp only [ChainState.Telling, hdone, hop] at hsound
    exact hmoves _ rfl fun u hcontinues => hsound.mono hcontinues
  | @queried query next hqueries hok =>
    obtain ⟨-, hquery⟩ := hqueries.untried hreached
    obtain ⟨heffect, -⟩ := query.run_effect htraced.valid outcome.now
    have hdb : ∀ q name, s.Names q name →
        ({ s with db := (query.run s.db outcome.now).1 } : ChainState).Names q name :=
      fun q name hname => heffect.name_kept hname
    refine h.moves hc (t := { s with db := (query.run s.db outcome.now).1 }) rfl rfl rfl hdb rfl
      (fun _ _ _ => Or.inl) (fun _ _ _ => Or.inl) fun hcontinues hnow => ?_
    exact .queried heffect hqueries hquery (h.kept_later hcontinues _ (Nat.le_refl _))
      (Nat.le_refl _) hnow rfl rfl
  | unavailable hqueries hok => exact hmoves _ rfl fun u _ => .failed
  | @hit missed e value hreads hok hget hvalue =>
    obtain ⟨hentry, -⟩ := CacheStore.get_eq_some.mp hget
    obtain ⟨found, statement, set, hfound, -, hdetails, hlast⟩ := htraced.entries _ e hentry
    obtain rfl := CacheValue.queueDetails.inj (hfound.symm.trans hvalue)
    obtain ⟨writer, hwriter, -, hstatement, -⟩ := hlast.wrote
    have hbefore := ((htraced.ordered _ writer hwriter).database statement hstatement).2
    have hsound : s.Sound c.op (c.op.answer found.intoDetails) :=
      hdetails ▸ .of_past (h.kept _ hbefore) hbefore
    exact hmoves _ rfl fun u hcontinues => hsound.mono hcontinues
  | missed hreads hok hget =>
    refine hmoves _ rfl fun u _ => ?_
    generalize c.phase = phase at hreads
    cases hreads <;> exact trivial
  | degraded hreads hread => exact hmoves _ rfl fun u _ => trivial
  | locks hphase =>
    obtain ⟨store, phase, hlock, -, hnext⟩ := lock_eq s id c outcome
    rw [hlock]
    refine h.moves hc (t := { s with store }) rfl rfl rfl (fun _ _ hname => hname) rfl
      (fun _ _ _ => Or.inl) (fun _ _ _ => Or.inl) fun _ _ => ?_
    rcases hnext with rfl | rfl | rfl <;> exact trivial
  | @wrote q value response hwrites heffect =>
    have hsound := hwrites.sound h htraced hc
    exact h.moves hc rfl rfl rfl (fun _ _ hname => hname) rfl (fun _ _ _ => Or.inl)
      (fun _ _ _ => Or.inl) fun hcontinues _ => hsound.mono hcontinues
  | @notWritten q value response hwrites hok hexecuted =>
    have hsound := hwrites.sound h htraced hc
    exact hmoves _ rfl fun u hcontinues => hsound.mono hcontinues
  | finishes hphase =>
    simp only [ChainState.Telling, hphase] at htelling
    exact h.finishes hc htelling

/-! ## Runs -/

/-- **In every state the answers are sound.** -/
theorem named_of_execution {db : Database} (hvalid : db.Valid)
    (hrun : Execution (ChainState.step config) anyAction (.start db) s) : s.Named := by
  refine hrun.invariant .start fun s a s' hbefore h _ hstep => ?_
  by_cases henvironment : a.environment = true
  · exact h.environment henvironment hstep
  · obtain ⟨t, hact, rfl⟩ := step_eq_some hstep
    cases a with
    | start id process op =>
      obtain ⟨hnew, hact⟩ := Option.ite_none_right_eq_some.mp hact
      obtain rfl := Option.some.inj hact
      exact h.begin (Option.isNone_iff_eq_none.mp hnew) process op
    | await id outcome =>
      obtain ⟨c, hc, hawait⟩ := Option.bind_eq_some_iff.mp hact
      exact h.awaited (traced_of_execution hvalid hbefore) hc (await_cases hawait)
    | elapse | evict | evictName => exact absurd rfl henvironment

/-- **The caches answer what the table held at some moment.**  However calls of all processes
    interleave, and whatever fails, expires or is evicted: a look-up that has been answered has
    failed, or it has been told what PostgreSQL would have answered at some moment of the run; and a
    name that it has been told, or that a process keeps, is the name of the queue in the table. -/
theorem lookups_are_answers_of_the_table {db : Database} (hvalid : db.Valid)
    (hrun : Execution (ChainState.step config) anyAction (.start db) s) :
    (∀ id c response, s.calls id = some c → c.op.isRead = true → c.phase = .done response →
      ((∃ error, response = .failed error) ∨
        ∃ n ≤ s.time, response = c.op.answer (s.past n c.op.queueId)) ∧
      ∀ name, response = .queueName (some name) → queueName s.db c.op.queueId = some name) ∧
    ∀ process queueId name, s.names process queueId = some name →
      queueName s.db queueId = some name := by
  have h := named_of_execution hvalid hrun
  have hnow := (traced_of_execution hvalid hrun).valid
  constructor
  · intro id c response hc hread hdone
    have hsound := h.calls id c hc
    simp only [ChainState.Telling, hdone] at hsound
    refine ⟨hsound.read hread, fun name hname => ?_⟩
    have hanswered := hsound.read hread
    subst hname
    rw [queueName_eq hnow]
    cases hop : c.op with
    | queueName q => exact hsound.name q name (by rw [hop]; rfl)
    | queueDetails q =>
      rw [hop] at hanswered
      simp [MetadataOp.answer] at hanswered
    | createQueue | updateQueue =>
      rw [hop] at hread
      simp [MetadataOp.isRead] at hread
  · intro process queueId name hname
    rw [queueName_eq hnow]
    exact h.memory process queueId name hname

/-- Process 1 has found no queue 1 when process 0 creates it, and it caches that afterwards.  Then
    both look the name up. -/
def overtakenCreate : List ChainAction :=
  .start 0 1 (.queueDetails 1) :: awaits 0 4 ++
    .start 1 0 (.createQueue (ordersQueue 5 fiveAttempts_inRange)) :: awaits 1 3 ++ awaits 0 2 ++
    .start 2 1 (.queueName 1) :: awaits 2 2 ++ .start 3 0 (.queueName 1) :: awaits 3 1

/-- Process 1 is told that there is no queue, as it was before; process 0 knows its name. -/
theorem lookups_are_answers_of_the_table_overtakenCreate : ∃ (s : ChainState) (c d : MetadataCall),
    s.calls 2 = some c ∧ c.phase = .done (.queueName none) ∧
    (∃ n ≤ s.time, .queueName none = c.op.answer (s.past n c.op.queueId)) ∧
    s.calls 3 = some d ∧ d.phase = .done (.queueName (some "orders")) ∧
    queueName s.db d.op.queueId = some "orders" := by
  have hrun : ∀ ran ∈ ([(2, .queueName none), (3, .queueName (some "orders"))] :
        List (Nat × MetadataResponse)),
      (runAllowed (ChainState.step bothCaches) anyAction (.start .empty) overtakenCreate).map
        (fun s => (s.calls ran.1).map fun c => (c.op, c.phase.response)) =
          some (some (.queueName 1, some ran.2)) := by
    decide +kernel
  obtain ⟨s, hs, hfirst⟩ := Option.map_eq_some_iff.mp (hrun _ List.mem_cons_self)
  have hsecond := hrun _ (List.mem_cons_of_mem _ List.mem_cons_self)
  rw [hs, Option.map_some, Option.some.injEq] at hsecond
  obtain ⟨c, hc, hanswer⟩ := Option.map_eq_some_iff.mp hfirst
  obtain ⟨d, hd, hanswer'⟩ := Option.map_eq_some_iff.mp hsecond
  obtain ⟨hop, hresponse⟩ := Prod.mk.inj hanswer
  obtain ⟨hop', hresponse'⟩ := Prod.mk.inj hanswer'
  have hdone := CallPhase.response_eq_some.mp hresponse
  have hdone' := CallPhase.response_eq_some.mp hresponse'
  have hlookups :=
    (lookups_are_answers_of_the_table Database.empty_valid (execution_of_runAllowed hs)).1
  have hread : ∀ {op : MetadataOp}, op = .queueName 1 → op.isRead = true := by
    rintro _ rfl
    rfl
  refine ⟨s, c, d, hc, hdone, ?_, hd, hdone', ?_⟩
  · obtain ⟨error, herror⟩ | hpast := (hlookups 2 c _ hc (hread hop) hdone).1
    · simp at herror
    · exact hpast
  · exact (hlookups 3 d _ hd (hread hop') hdone').2 "orders" rfl

end Retsu
