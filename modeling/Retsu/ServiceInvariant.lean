/-
  The invariant of the service.

  Every thread is its task with the answers it was given, and every answer has a witness: a moment
  of the table, or an entry of the log.  A thread that waits for a transaction is the only one that
  does, and the transaction is the operation that it has asked for.
-/
import Retsu.Service

namespace Retsu

open Concurrency UseCases Program

variable {order : TriggerOrder}

/-! ## Transactions stay what they are -/

/-- A transaction keeps its operation and its time, and its response when it has committed. -/
theorem Step.txn_kept {s s' : System} {a : Action} (hstep : Step order s a s') {tid : Nat} {t : Txn}
    (ht : s.txns tid = some t) :
    ∃ t', s'.txns tid = some t' ∧ t'.op = t.op ∧ t'.now = t.now ∧
      ∀ response, t.phase = .committed response → t'.phase = .committed response := by
  have hset : ∀ {actor : Nat} {u v : Txn}, s'.txns = (s.setTxn actor v).txns →
      s.txns actor = some u → u.phase.active → v.op = u.op → v.now = u.now →
      ∃ t', s'.txns tid = some t' ∧ t'.op = t.op ∧ t'.now = t.now ∧
        ∀ response, t.phase = .committed response → t'.phase = .committed response := by
    intro actor u v htxns hu hactive hop hnow
    rw [htxns]
    by_cases hactor : tid = actor
    · subst hactor
      obtain rfl := Option.some.inj (ht.symm.trans hu)
      refine ⟨v, s.setTxn_self tid v, hop, hnow, fun response hphase => ?_⟩
      rw [hphase] at hactive
      simp [Phase.active] at hactive
    · exact ⟨t, (s.setTxn_other v hactor).trans ht, rfl, rfl, fun _ h => h⟩
  cases hstep with
  | tick => exact ⟨t, ht, rfl, rfl, fun _ h => h⟩
  | @start actor op hidle =>
    have hne : tid ≠ actor := by
      rintro rfl
      rw [ht] at hidle
      simp at hidle
    exact ⟨t, (s.setTxn_other _ hne).trans ht, rfl, rfl, fun _ h => h⟩
  | snapshot hu hphase | pass hu hphase | reject hu hphase | pick hu hphase | count hu hphase
  | lockCounter hu hphase | commit hu hphase =>
    exact hset rfl hu (by rw [hphase]; rfl) rfl rfl
  | abort hu hactive => exact hset rfl hu hactive rfl rfl

/-- A transaction that has committed has done so before, or does so now. -/
theorem Step.commit_of_committed {s s' : System} {a : Action} (hstep : Step order s a s') {tid : Nat}
    {t' : Txn} {response : Response} (ht' : s'.txns tid = some t')
    (hphase' : t'.phase = .committed response) :
    (∃ t, s.txns tid = some t ∧ t.phase = .committed response) ∨ a = .commit tid := by
  have hset : ∀ {actor : Nat} {v : Txn}, s'.txns = (s.setTxn actor v).txns →
      v.phase ≠ .committed response →
      (∃ t, s.txns tid = some t ∧ t.phase = .committed response) ∨ a = .commit tid := by
    intro actor v htxns hv
    rw [htxns] at ht'
    rcases System.setTxn_eq_some.mp ht' with ⟨rfl, rfl⟩ | ⟨-, ht'⟩
    · exact absurd hphase' hv
    · exact Or.inl ⟨t', ht', hphase'⟩
  cases hstep with
  | tick => exact Or.inl ⟨t', ht', hphase'⟩
  | start => exact hset rfl (by simp [Txn.begin])
  | snapshot => exact hset rfl (by simp)
  | count => exact hset rfl (by simp)
  | abort => exact hset rfl (by simp)
  | pass hu hphase | reject hu hphase | pick hu hphase =>
    exact hset rfl (by simp [Txn.setScan, hphase])
  | lockCounter hu hphase => exact hset rfl (by simp [hphase])
  | @commit actor u hu =>
    rcases System.setTxn_eq_some.mp ht' with ⟨rfl, rfl⟩ | ⟨-, ht'⟩
    · exact Or.inr rfl
    · exact Or.inl ⟨t', ht', hphase'⟩

/-- Queues keep their names from step to step. -/
theorem Step.queue_kept {s s' : System} {a : Action} (hinv : s.Inv) (hstep : Step order s a s') :
    ∀ q ∈ s.db.queue, ∃ q' ∈ s'.db.queue, q'.id = q.id ∧ q'.name = q.name := by
  rcases hstep.committed with ⟨-, hsame, -⟩ | ⟨tid, t, rfl, ht, hactive, rfl⟩
  · rw [hsame]
    exact fun q hq => ⟨q, hq, rfl, rfl⟩
  · obtain ⟨heffect, -⟩ := (hinv.txn tid t ht hactive).execute_effect hinv.valid order
    exact heffect.queue_kept hinv.valid

/-! ## The invariant -/

namespace Service

/-- Where an answer comes from, in a thread that has sent this transaction, if any. -/
def Witnessed (s : Service) (sent : Option Nat) : Exchange Query Answer → Prop
  | ⟨.queueName queueId, .ok name⟩ => ∃ db ∈ s.past, name = queueName db queueId
  | ⟨.queueDetails queueId, .ok details⟩ => ∃ db ∈ s.past, queueDetails db queueId = .ok details
  | ⟨.run op, .ok result⟩ => ∃ c ∈ s.commits, sent = some c.1 ∧ c.1 ∈ s.reported ∧ c.2.op = op ∧
      c.2.response = op.respond result
  | ⟨_, .error _⟩ => True

/-- A thread has sent this operation: it waits for the response, or has had an answer. -/
inductive Sent (reported : List Nat) (thread : Thread) (tid : Nat) (op : Operation) : Prop
  | waits {next : Answer (.run op) → Awaiting (Outcome × List Measurement)}
      (hnew : tid ∉ reported) (hprogram : thread.program = .await (.run op) next)
  | answered {answer : Answer (.run op)} (hmem : ⟨.run op, answer⟩ ∈ thread.answered)

structure Inv (order : TriggerOrder) (s : Service) : Prop where
  reachable : Retsu.Reachable order s.system
  present : s.system.db ∈ s.past
  past : ∀ db ∈ s.past, db.Valid ∧
    ∀ q ∈ db.queue, ∃ q' ∈ s.system.db.queue, q'.id = q.id ∧ q'.name = q.name
  log : s.commits.map Prod.snd = s.system.log
  tids : (s.commits.map Prod.fst).Nodup
  committed : ∀ c ∈ s.commits, ∃ t, s.system.txns c.1 = some t ∧ t.op = c.2.op ∧
    t.now = c.2.now ∧ t.phase = .committed c.2.response
  commits : ∀ tid t response, s.system.txns tid = some t → t.phase = .committed response →
    ∃ e, (tid, e) ∈ s.commits
  reported : s.reported.Nodup ∧ ∀ tid ∈ s.reported, tid ∈ s.commits.map Prod.fst
  goes : ∀ id thread, s.threads id = some thread →
    Goes thread.task.program thread.answered thread.program
  witnessed : ∀ id thread, s.threads id = some thread →
    ∀ x ∈ thread.answered, s.Witnessed thread.sent x
  sent : ∀ id thread tid, s.threads id = some thread → thread.sent = some tid →
    ∃ t, s.system.txns tid = some t ∧ Sent s.reported thread tid t.op
  distinct : ∀ id id' thread thread' tid, s.threads id = some thread → s.threads id' = some thread' →
    thread.sent = some tid → thread'.sent = some tid → id = id'

theorem initial_inv : Service.initial.Inv order where
  reachable := .refl
  present := by simp [initial]
  past := by
    intro db hdb
    obtain rfl := List.mem_singleton.mp hdb
    exact ⟨Database.empty_valid, fun q hq => ⟨q, hq, rfl, rfl⟩⟩
  log := rfl
  tids := by simp [initial]
  committed := by simp [initial]
  commits := by simp [initial, System.initial]
  reported := by simp [initial]
  goes := by simp [initial]
  witnessed := by simp [initial]
  sent := by simp [initial]
  distinct := by simp [initial]

variable {s s' : Service} {id : Nat}

/-- A witness stays one. -/
theorem Witnessed.mono {sent sent' : Option Nat} {x : Exchange Query Answer}
    (h : s.Witnessed sent x) (hpast : ∀ db ∈ s.past, db ∈ s'.past)
    (hcommits : ∀ c ∈ s.commits, c ∈ s'.commits)
    (hreported : ∀ tid ∈ s.reported, tid ∈ s'.reported)
    (hsent : ∀ tid, sent = some tid → sent' = some tid) : s'.Witnessed sent' x := by
  obtain ⟨q, answer⟩ := x
  cases answer with
  | error e => cases q <;> trivial
  | ok result =>
    cases q with
    | queueName queueId =>
      obtain ⟨db, hdb, hname⟩ := h
      exact ⟨db, hpast db hdb, hname⟩
    | queueDetails queueId =>
      obtain ⟨db, hdb, hdetails⟩ := h
      exact ⟨db, hpast db hdb, hdetails⟩
    | run op =>
      obtain ⟨c, hc, hthread, htid, hop, hresponse⟩ := h
      exact ⟨c, hcommits c hc, hsent _ hthread, hreported _ htid, hop, hresponse⟩

theorem setThread_eq_some {thread : Option Thread} {other : Nat} {found : Thread} :
    (s.setThread id thread).threads other = some found ↔
      (other = id ∧ thread = some found) ∨ (other ≠ id ∧ s.threads other = some found) := by
  show (if other = id then thread else s.threads other) = some found ↔ _
  split <;> simp_all

/-- A thread goes on: its answer has a witness, and no other thread waits for what it takes. -/
theorem Inv.resume (h : s.Inv order) {thread : Thread} (hthread : s.threads id = some thread)
    {q : Query} {next : Answer q → Awaiting (Outcome × List Measurement)}
    (hprogram : thread.program = .await q next) (answer : Answer q) {reported : List Nat}
    (hreported : reported.Nodup ∧ ∀ tid ∈ reported, tid ∈ s.commits.map Prod.fst)
    (hmore : ∀ tid ∈ s.reported, tid ∈ reported)
    (hothers : ∀ id' ≠ id, ∀ thread' tid, s.threads id' = some thread' →
      thread'.sent = some tid → tid ∉ s.reported → tid ∉ reported)
    (hanswer : { s with reported := reported }.Witnessed thread.sent ⟨q, answer⟩) :
    Inv order { s.resume id thread ⟨q, answer⟩ (next answer) with reported := reported } where
  reachable := h.reachable
  present := h.present
  past := h.past
  log := h.log
  tids := h.tids
  committed := h.committed
  commits := h.commits
  reported := hreported
  goes := by
    intro other found hfound
    rcases setThread_eq_some.mp hfound with ⟨rfl, hnew⟩ | ⟨-, hold⟩
    · obtain rfl := Option.some.inj hnew
      exact (hprogram ▸ h.goes _ thread hthread).snoc answer
    · exact h.goes other found hold
  witnessed := by
    intro other found hfound x hx
    have hkeep : ∀ sent x, s.Witnessed sent x → { s with reported := reported }.Witnessed sent x :=
      fun sent x hx => hx.mono (fun _ h => h) (fun _ h => h) hmore fun _ h => h
    rcases setThread_eq_some.mp hfound with ⟨rfl, hnew⟩ | ⟨-, hold⟩
    · obtain rfl := Option.some.inj hnew
      rcases List.mem_append.mp hx with hx | hx
      · exact hkeep _ x (h.witnessed _ thread hthread x hx)
      · rw [List.mem_singleton.mp hx]
        exact hanswer
    · exact hkeep _ x (h.witnessed other found hold x hx)
  sent := by
    intro other found tid hfound hsent
    rcases setThread_eq_some.mp hfound with ⟨rfl, hnew⟩ | ⟨hne, hold⟩
    · obtain rfl := Option.some.inj hnew
      obtain ⟨t, ht, hsent⟩ := h.sent _ thread tid hthread hsent
      cases hsent with
      | waits hunreported hwaits =>
        -- what it waits for is what has been answered
        have heq := hwaits.symm.trans hprogram
        injection heq with hq
        subst hq
        exact ⟨t, ht, .answered (List.mem_append_right _ List.mem_cons_self)⟩
      | answered hmem => exact ⟨t, ht, .answered (List.mem_append_left _ hmem)⟩
    · obtain ⟨t, ht, hsent'⟩ := h.sent other found tid hold hsent
      cases hsent' with
      | waits hunreported hwaits =>
        exact ⟨t, ht, .waits (hothers other hne found tid hold hsent hunreported) hwaits⟩
      | answered hmem => exact ⟨t, ht, .answered hmem⟩
  distinct := by
    have hold : ∀ {other : Nat} {found : Thread}, { s.resume id thread ⟨q, answer⟩ (next answer) with
        reported := reported }.threads other = some found →
        ∃ before, s.threads other = some before ∧ before.sent = found.sent := by
      intro other found hfound
      rcases setThread_eq_some.mp hfound with ⟨rfl, hnew⟩ | ⟨-, hold⟩
      · obtain rfl := Option.some.inj hnew
        exact ⟨thread, hthread, rfl⟩
      · exact ⟨found, hold, rfl⟩
    intro one other found found' tid hfound hfound' hsent hsent'
    obtain ⟨before, hbefore, heq⟩ := hold hfound
    obtain ⟨before', hbefore', heq'⟩ := hold hfound'
    exact h.distinct one other before before' tid hbefore hbefore' (heq.trans hsent)
      (heq'.trans hsent')

/-- A thread goes on with an answer that is no response. -/
theorem Inv.answer (h : s.Inv order) {thread : Thread} (hthread : s.threads id = some thread)
    {q : Query} {next : Answer q → Awaiting (Outcome × List Measurement)}
    (hprogram : thread.program = .await q next) (answer : Answer q)
    (hanswer : s.Witnessed thread.sent ⟨q, answer⟩) :
    Inv order (s.resume id thread ⟨q, answer⟩ (next answer)) :=
  h.resume hthread hprogram answer h.reported (fun _ h => h) (fun _ _ _ _ _ _ hnew => hnew) hanswer

/-- What a thread that waits has sent is the transaction that it waits for. -/
theorem Inv.sent_of_waits (h : s.Inv order) {thread : Thread} (hthread : s.threads id = some thread)
    {tid : Nat} (hsent : thread.sent = some tid) {op : Operation}
    {next : Answer (.run op) → Awaiting (Outcome × List Measurement)}
    (hprogram : thread.program = .await (.run op) next) {t : Txn}
    (ht : s.system.txns tid = some t) : tid ∉ s.reported ∧ t.op = op := by
  obtain ⟨t', ht', hsent⟩ := h.sent id thread tid hthread hsent
  obtain rfl := Option.some.inj (ht.symm.trans ht')
  cases hsent with
  | waits hnew hwaits =>
    have heq := hwaits.symm.trans hprogram
    injection heq with hq
    exact ⟨hnew, Query.run.inj hq⟩
  | answered hmem =>
    -- it has run an operation, after which it asks nothing
    have hends := (h.goes id thread hthread).conforms thread.task.conforms
    rw [hprogram] at hends
    exact absurd hmem ((Program.conforms_await.mp hends).1 _ _)

/-- A thread takes the response of the transaction that it has sent. -/
theorem Inv.reply (h : s.Inv order) {thread : Thread} (hthread : s.threads id = some thread)
    {tid : Nat} (hsent : thread.sent = some tid) {op : Operation}
    {next : Answer (.run op) → Awaiting (Outcome × List Measurement)}
    (hprogram : thread.program = .await (.run op) next) {t : Txn} {response : Response}
    (ht : s.system.txns tid = some t) (hphase : t.phase = .committed response)
    {result : Except RepositoryError op.Result} (hresult : op.result? response = some result) :
    Inv order { s.resume id thread ⟨.run op, result.mapError .repository⟩
      (next (result.mapError .repository)) with reported := tid :: s.reported } := by
  obtain ⟨hnew, rfl⟩ := h.sent_of_waits hthread hsent hprogram ht
  obtain ⟨e, he⟩ := h.commits tid t response ht hphase
  obtain ⟨u, hu, hop, -, huphase⟩ := h.committed _ he
  obtain rfl := Option.some.inj (ht.symm.trans hu)
  obtain rfl := Phase.committed.inj (hphase.symm.trans huphase)
  refine h.resume hthread hprogram _ ⟨List.nodup_cons.mpr ⟨hnew, h.reported.1⟩, ?_⟩
    (fun _ hmem => List.mem_cons_of_mem _ hmem) ?_ ?_
  · intro other hother
    rcases List.mem_cons.mp hother with rfl | hother
    · exact List.mem_map_of_mem he
    · exact h.reported.2 other hother
  · intro id' hne thread' tid' hthread' hsent' hunreported hmem
    rcases List.mem_cons.mp hmem with rfl | hmem
    · exact hne (h.distinct id' id thread' thread _ hthread' hthread hsent' hsent)
    · exact hunreported hmem
  · cases result with
    | error e => trivial
    | ok value =>
      exact ⟨_, he, hsent, List.mem_cons_self, hop.symm, Operation.result?_eq_ok.mp hresult⟩

/-- A new thread. -/
theorem Inv.spawn (h : s.Inv order) (hidle : s.threads id = none) (task : Task) :
    Inv order (s.spawn id task) where
  reachable := h.reachable
  present := h.present
  past := h.past
  log := h.log
  tids := h.tids
  committed := h.committed
  commits := h.commits
  reported := h.reported
  goes := by
    intro other found hfound
    rcases setThread_eq_some.mp hfound with ⟨rfl, hnew⟩ | ⟨-, hold⟩
    · obtain rfl := Option.some.inj hnew
      exact .refl
    · exact h.goes other found hold
  witnessed := by
    intro other found hfound x hx
    rcases setThread_eq_some.mp hfound with ⟨rfl, hnew⟩ | ⟨-, hold⟩
    · obtain rfl := Option.some.inj hnew
      simp at hx
    · exact h.witnessed other found hold x hx
  sent := by
    intro other found tid hfound hsent
    rcases setThread_eq_some.mp hfound with ⟨rfl, hnew⟩ | ⟨-, hold⟩
    · obtain rfl := Option.some.inj hnew
      simp at hsent
    · exact h.sent other found tid hold hsent
  distinct := by
    intro one other found found' tid hfound hfound' hsent hsent'
    rcases setThread_eq_some.mp hfound with ⟨rfl, hnew⟩ | ⟨-, hold⟩
    · obtain rfl := Option.some.inj hnew
      simp at hsent
    · rcases setThread_eq_some.mp hfound' with ⟨rfl, hnew⟩ | ⟨-, hold'⟩
      · obtain rfl := Option.some.inj hnew
        simp at hsent'
      · exact h.distinct one other found found' tid hold hold' hsent hsent'

/-- A thread that nothing is left of. -/
theorem Inv.drop (h : s.Inv order) (id : Nat) : Inv order (s.setThread id none) := by
  have hold : ∀ other found, (s.setThread id none).threads other = some found →
      s.threads other = some found := by
    intro other found hfound
    rcases setThread_eq_some.mp hfound with ⟨-, hnew⟩ | ⟨-, hold⟩
    · simp at hnew
    · exact hold
  exact { h with
    goes := fun other found hfound => h.goes other found (hold other found hfound)
    witnessed := fun other found hfound => h.witnessed other found (hold other found hfound)
    sent := fun other found tid hfound => h.sent other found tid (hold other found hfound)
    distinct := fun one other found found' tid hfound hfound' =>
      h.distinct one other found found' tid (hold one found hfound) (hold other found' hfound') }

/-- What a step of the database keeps of the invariant, when the entries of its commit are added. -/
theorem Inv.system (h : s.Inv order) {a : Action} {system : System}
    (hstep : Retsu.step order s.system a = some system) {commits : List (Nat × Event)}
    (hsame : (∀ tid, a ≠ .commit tid) → commits = s.commits)
    (hcommit : ∀ tid t, a = .commit tid → s.system.txns tid = some t →
      commits = s.commits ++ [(tid, s.system.commitEvent order t)]) :
    Inv order { s with system := system, past := system.db :: s.past, commits := commits } := by
  have hinv := h.reachable.inv
  have hreach := h.reachable.step hstep
  have hstep := Retsu.step_cases hstep
  have hcases : (commits = s.commits ∧ system.log = s.system.log ∧ ∀ tid, a ≠ .commit tid) ∨
      ∃ tid t, a = .commit tid ∧ s.system.txns tid = some t ∧ t.phase = .counting ∧
        system = s.system.commit order tid t ∧
        commits = s.commits ++ [(tid, s.system.commitEvent order t)] := by
    cases hstep with
    | @commit tid t ht hphase hcounters =>
      exact Or.inr ⟨tid, t, rfl, ht, hphase, rfl, hcommit tid t rfl ht⟩
    | _ => exact Or.inl ⟨hsame (by simp), rfl, by simp⟩
  have hmore : ∀ c ∈ s.commits, c ∈ commits := by
    intro c hc
    rcases hcases with ⟨rfl, -⟩ | ⟨tid, t, -, -, -, -, rfl⟩
    · exact hc
    · exact List.mem_append_left _ hc
  exact {
    reachable := hreach
    present := List.mem_cons_self
    past := by
      intro db hdb
      rcases List.mem_cons.mp hdb with rfl | hdb
      · exact ⟨hreach.inv.valid, fun q hq => ⟨q, hq, rfl, rfl⟩⟩
      · obtain ⟨hvalid, hnames⟩ := h.past db hdb
        refine ⟨hvalid, fun q hq => ?_⟩
        obtain ⟨q', hq', hid, hname⟩ := hnames q hq
        obtain ⟨q'', hq'', hid', hname'⟩ := hstep.queue_kept hinv q' hq'
        exact ⟨q'', hq'', hid'.trans hid, hname'.trans hname⟩
    log := by
      rcases hcases with ⟨rfl, hlog, -⟩ | ⟨tid, t, -, -, -, rfl, rfl⟩
      · exact h.log.trans hlog.symm
      · show (s.commits ++ [_]).map Prod.snd = s.system.log ++ [_]
        rw [List.map_append, h.log]
        rfl
    tids := by
      rcases hcases with ⟨rfl, -⟩ | ⟨tid, t, -, ht, hphase, -, rfl⟩
      · exact h.tids
      · show ((s.commits ++ [_]).map Prod.fst).Nodup
        rw [List.map_append, List.nodup_append]
        refine ⟨h.tids, by simp, fun one hone other hother => ?_⟩
        obtain ⟨c, hc, rfl⟩ := List.mem_map.mp hone
        obtain rfl := List.mem_singleton.mp hother
        rintro rfl
        obtain ⟨u, hu, -, -, huphase⟩ := h.committed c hc
        obtain rfl := Option.some.inj (ht.symm.trans hu)
        rw [hphase] at huphase
        simp at huphase
    committed := by
      intro c hc
      have hold : c ∈ s.commits → ∃ t, system.txns c.1 = some t ∧ t.op = c.2.op ∧
          t.now = c.2.now ∧ t.phase = .committed c.2.response := by
        intro hc
        obtain ⟨t, ht, hop, hnow, hphase⟩ := h.committed c hc
        obtain ⟨t', ht', hop', hnow', hkept⟩ := hstep.txn_kept ht
        exact ⟨t', ht', hop'.trans hop, hnow'.trans hnow, hkept _ hphase⟩
      rcases hcases with ⟨rfl, -⟩ | ⟨tid, t, -, ht, -, rfl, rfl⟩
      · exact hold hc
      · rcases List.mem_append.mp hc with hc | hc
        · exact hold hc
        · rw [List.mem_singleton.mp hc]
          exact ⟨_, s.system.setTxn_self tid _, rfl, rfl, rfl⟩
    commits := by
      intro tid t' response ht' hphase'
      rcases hstep.commit_of_committed ht' hphase' with ⟨t, ht, hphase⟩ | rfl
      · obtain ⟨e, he⟩ := h.commits tid t response ht hphase
        exact ⟨e, hmore _ he⟩
      · rcases hcases with ⟨-, -, hno⟩ | ⟨tid', t, hactor, ht, -, -, rfl⟩
        · exact absurd rfl (hno tid)
        · obtain rfl := Action.commit.inj hactor
          exact ⟨_, List.mem_append_right _ (List.mem_singleton.mpr rfl)⟩
    reported := by
      refine ⟨h.reported.1, fun tid htid => ?_⟩
      obtain ⟨c, hc, rfl⟩ := List.mem_map.mp (h.reported.2 tid htid)
      exact List.mem_map_of_mem (hmore c hc)
    goes := h.goes
    witnessed := fun id thread hthread x hx => (h.witnessed id thread hthread x hx).mono
      (fun _ hdb => List.mem_cons_of_mem _ hdb) hmore (fun _ htid => htid) (fun _ h => h)
    sent := by
      intro id thread tid hthread hsent
      obtain ⟨t, ht, hsent⟩ := h.sent id thread tid hthread hsent
      obtain ⟨t', ht', hop, -⟩ := hstep.txn_kept ht
      exact ⟨t', ht', hop ▸ hsent⟩
    distinct := h.distinct }

/-- A thread sends its operation. -/
theorem Inv.send (h : s.Inv order) {tid : Nat} {thread : Thread} {op : Operation} {system : System}
    {next : Answer (.run op) → Awaiting (Outcome × List Measurement)}
    (hthread : s.threads id = some thread) (hsent : thread.sent = none)
    (hprogram : thread.program = .await (.run op) next)
    (hstep : Retsu.step order s.system (.start tid op) = some system) :
    Inv order
      { s.setThread id (some { thread with sent := some tid }) with system := system } := by
  have hstart := Retsu.step_cases hstep
  have hsystem := h.system hstep (fun _ => rfl) (by simp)
  have hidle : s.system.txns tid = none := by
    cases hstart with
    | start hidle => exact hidle
  have hbegun : ∃ t, system.txns tid = some t ∧ t.op = op := by
    cases hstart with
    | start => exact ⟨_, s.system.setTxn_self tid _, rfl⟩
  -- no transaction had the number before
  have hunused : ∀ id' thread', s.threads id' = some thread' → thread'.sent ≠ some tid := by
    intro id' thread' hthread' hsent
    obtain ⟨t, ht, -⟩ := h.sent id' thread' tid hthread' hsent
    rw [hidle] at ht
    simp at ht
  have hnew : tid ∉ s.reported := by
    intro hmem
    obtain ⟨c, hc, rfl⟩ := List.mem_map.mp (h.reported.2 tid hmem)
    obtain ⟨t, ht, -⟩ := h.committed c hc
    rw [hidle] at ht
    simp at ht
  -- the table is the same, so the moment that has been added adds nothing
  have hdb : system.db = s.system.db := by
    cases hstart with
    | start => rfl
  have hpast : ∀ db ∈ system.db :: s.past, db ∈ s.past := by
    intro db hmem
    rcases List.mem_cons.mp hmem with rfl | hmem
    · exact hdb ▸ h.present
    · exact hmem
  exact {
    reachable := hsystem.reachable
    present := hdb ▸ h.present
    past := fun db hmem => hsystem.past db (List.mem_cons_of_mem _ hmem)
    log := hsystem.log
    tids := hsystem.tids
    committed := hsystem.committed
    commits := hsystem.commits
    reported := h.reported
    goes := by
      intro other found hfound
      rcases setThread_eq_some.mp hfound with ⟨rfl, heq⟩ | ⟨-, hold⟩
      · obtain rfl := Option.some.inj heq
        exact h.goes _ thread hthread
      · exact h.goes other found hold
    witnessed := by
      intro other found hfound x hx
      rcases setThread_eq_some.mp hfound with ⟨rfl, heq⟩ | ⟨-, hold⟩
      · obtain rfl := Option.some.inj heq
        refine (h.witnessed _ thread hthread x hx).mono (fun _ h => h) (fun _ h => h)
          (fun _ h => h) fun tid' hold => ?_
        rw [hsent] at hold
        simp at hold
      · exact (h.witnessed other found hold x hx).mono (fun _ h => h) (fun _ h => h)
          (fun _ h => h) fun _ h => h
    sent := by
      intro other found tid' hfound hsent
      rcases setThread_eq_some.mp hfound with ⟨rfl, heq⟩ | ⟨-, hold⟩
      · obtain rfl := Option.some.inj heq
        obtain rfl := Option.some.inj hsent
        obtain ⟨t, ht, rfl⟩ := hbegun
        exact ⟨t, ht, .waits hnew hprogram⟩
      · exact hsystem.sent other found tid' hold hsent
    distinct := by
      intro one other found found' tid' hfound hfound' hsent hsent'
      rcases setThread_eq_some.mp hfound with ⟨rfl, heq⟩ | ⟨-, hold⟩
      · obtain rfl := Option.some.inj heq
        obtain rfl := Option.some.inj hsent
        rcases setThread_eq_some.mp hfound' with ⟨rfl, -⟩ | ⟨-, hold'⟩
        · rfl
        · exact absurd hsent' (hunused other found' hold')
      · rcases setThread_eq_some.mp hfound' with ⟨rfl, heq⟩ | ⟨-, hold'⟩
        · obtain rfl := Option.some.inj heq
          obtain rfl := Option.some.inj hsent'
          exact absurd hsent (hunused one found hold)
        · exact h.distinct one other found found' tid' hold hold' hsent hsent' }

theorem Inv.step {a : ServiceAction} (h : s.Inv order) (hstep : Step order s a s') :
    s'.Inv order := by
  cases hstep with
  | @system a system hstart hstep =>
    refine h.system hstep (fun hno => ?_) fun tid t ha ht => ?_
    · cases a <;> first | exact List.append_nil _ | exact absurd rfl (hno _)
    · subst ha
      show s.commits ++ (s.system.txns tid).toList.map _ = _
      rw [ht]
      rfl
  | spawn hidle => exact h.spawn hidle _
  | readName hthread hdb hprogram =>
    exact h.answer hthread hprogram _ ⟨_, hdb, rfl⟩
  | @readDetails id _ thread db queueId next hthread hdb hprogram =>
    refine h.answer hthread hprogram _ ?_
    rw [queueDetails_eq (h.past db hdb).1]
    exact ⟨db, hdb, queueDetails_eq (h.past db hdb).1 queueId⟩
  | send hthread hsent hprogram hstep => exact h.send hthread hsent hprogram hstep
  | reply hthread hsent hprogram ht hphase hresult =>
    exact h.reply hthread hsent hprogram ht hphase hresult
  | @fail _ _ q _ hthread hprogram =>
    exact h.answer hthread hprogram _ (by cases q <;> trivial)
  | drop => exact h.drop _

theorem Reachable.inv (h : s.Reachable order) : s.Inv order :=
  h.invariant initial_inv fun _ _ _ _ hinv _ hstep => hinv.step (step_cases hstep)

end Service

/-! ## Later states -/

/-- The database goes on as the service does. -/
theorem Service.system_of_execution {s₁ s : Service}
    (hrun : Execution (Service.step order) anyAction s₁ s) :
    Execution (Retsu.step order) anyAction s₁.system s.system := by
  refine hrun.invariant (I := fun s => Execution (Retsu.step order) anyAction s₁.system s.system)
    .refl fun s a s' _ ih _ hstep => ?_
  cases Service.step_cases hstep with
  | system hstart hsystem => exact .step ih trivial hsystem
  | send hthread hsent hprogram hsystem => exact .step ih trivial hsystem
  | _ => exact ih

/-- The log only grows. -/
theorem log_kept {s s' : System} (hrun : Execution (step order) anyAction s s') :
    s.log <+: s'.log := by
  refine hrun.invariant (I := fun s' => s.log <+: s'.log) List.prefix_rfl
    fun s₁ a s₂ _ ih _ hstep => ?_
  rcases (step_cases hstep).committed with ⟨hlog, -⟩ | ⟨tid, t, -, -, -, rfl⟩
  · exact hlog ▸ ih
  · exact ih.trans (List.prefix_append _ _)

end Retsu
