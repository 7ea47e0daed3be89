/-
  First come, first served, as clients see it.

  A message takes its place in the order when the statement that stores it draws from the
  sequence.  So when the response to one enqueue has been taken before another one is asked for,
  the first message has the lower number, whatever happens in between; and a message with a lower
  number and no lower priority is passed over for a reason only.
-/
import Retsu.Overtaking
import Retsu.ServiceResponses

namespace Retsu

open Relational Concurrency UseCases Api

variable {order : TriggerOrder}

/-! ## Places in the order -/

/-- The event has stored the row, with the place that it keeps. -/
structure Event.Inserts (e : Event) (row : QueueMessage) : Prop where
  id : e.op.enqueuedId = some row.id
  stored : row ∈ e.after.queueMessage

/-- A live message has the place that it was stored with. -/
theorem Trace.inserted {events : List Event} {db : Database} (trace : Trace events db) :
    ∀ m ∈ db.queueMessage, ∃ e ∈ events, ∃ row, e.Inserts row ∧ row.id = m.id ∧
      row.enqueueOrder = m.enqueueOrder := by
  induction trace with
  | start => simp [Database.empty]
  | draw trace hseq ih => exact ih
  | @event events e queues trace hfresh hqueues heffect hvalid ih =>
    intro m' hm'
    have horigin := heffect.origin trace.valid hm'
    generalize hop : e.op = op at horigin
    generalize hresponse : e.response = response at horigin
    cases horigin with
    | kept hm =>
      obtain ⟨e', he', hinserts⟩ := ih m' hm
      exact ⟨e', List.mem_append_left _ he', hinserts⟩
    | enqueued hid => exact ⟨e, by simp, _, ⟨by rw [hop]; rfl, hm'⟩, rfl, rfl⟩
    | leased hqueue hchecked hm =>
      obtain ⟨e', he', row, hinserts, hrow, horder⟩ := ih _ hm
      exact ⟨e', List.mem_append_left _ he', row, hinserts, hrow, horder⟩

/-- Places that have been given are below the ones still to be drawn. -/
theorem Trace.place_lt {events : List Event} {db : Database} (trace : Trace events db) :
    ∀ e ∈ events, ∀ row, e.Inserts row → row.enqueueOrder < db.enqueueOrderSequence := by
  induction trace with
  | start => simp
  | draw trace hseq ih => exact fun e he row hinserts => lt_of_lt_of_le (ih e he row hinserts) hseq
  | @event events e queues trace hfresh hqueues heffect hvalid ih =>
    refine List.forall_mem_append.mpr ⟨fun e' he' row hinserts => ?_,
      List.forall_mem_singleton.mpr fun row hinserts => hvalid.drawn row hinserts.stored⟩
    exact lt_of_lt_of_le (ih e' he' row hinserts) heffect.sequence_le

/-- A message is stored by one event, with one place. -/
theorem Trace.place_unique {events : List Event} {db : Database} (trace : Trace events db)
    {e e' : Event} (he : e ∈ events) (he' : e' ∈ events) {row row' : QueueMessage}
    (h : e.Inserts row) (h' : e'.Inserts row') (hid : row.id = row'.id) :
    row.enqueueOrder = row'.enqueueOrder := by
  obtain rfl := trace.fresh he he' h.id (hid ▸ h'.id)
  exact congrArg _ (eq_of_key_eq (trace.sound he).after.messages.ids h.stored h'.stored hid)

/-- An enqueue that commits stores its row with the place that it has drawn. -/
theorem Txn.Inv.inserts {s : System} {tid : Nat} {t : Txn} (h : t.Inv s tid) (hvalid : s.db.Valid)
    {row : QueueMessage} (hinserts : (s.commitEvent order t).Inserts row) :
    row.enqueueOrder = t.enqueueOrder := by
  obtain ⟨hid, hstored⟩ := hinserts
  replace hid : t.op.enqueuedId = some row.id := hid
  replace hstored : row ∈ (t.execute order s.db).1.queueMessage := hstored
  have hnew := (h.messageId row.id hid).2.1
  cases hop : t.op with
  | enqueueMessage queueId message ttl =>
    simp only [Txn.execute, hop, executeEnqueue] at hstored
    have hold : row ∉ s.db.queueMessage := fun hrow => hnew row hrow rfl
    generalize hrow : message.row queueId ttl t.enqueueOrder t.now = stored at hstored
    have happly : (Statement.insert [stored]).apply s.db.queueMessage =
        s.db.queueMessage ++ [stored] := by
      simp [Statement.apply, Statement.insert, applyChanges, List.filterMap_some]
    rcases (Statement.insert [stored]).exec_cases hvalid.toRollupValid with
      ⟨e, -, hexec⟩ | ⟨-, shards, -, hexec, -⟩
    · rw [hexec] at hstored
      exact absurd hstored hold
    · rw [hexec, happly] at hstored
      obtain rfl := List.mem_singleton.mp ((List.mem_append.mp hstored).resolve_left hold)
      rw [← hrow]
      rfl
  | _ => simp [hop, Operation.enqueuedId] at hid

/-! ## What has begun since -/

/-- What began after `s₁` has a place that was not drawn then. -/
structure System.Since (s₁ s : System) : Prop where
  sequence : s₁.db.enqueueOrderSequence ≤ s.db.enqueueOrderSequence
  started : ∀ tid, s.txns tid = none → s₁.txns tid = none
  places : ∀ tid t, s₁.txns tid = none → s.txns tid = some t → t.phase.active →
    t.phase ≠ .started → s₁.db.enqueueOrderSequence ≤ t.enqueueOrder

theorem System.Since.step {s₁ s s' : System} {a : Action} (h : s₁.Since s) (hinv : s.Inv)
    (hstep : Step order s a s') : s₁.Since s' := by
  -- one transaction goes on
  have hset : ∀ {actor : Nat} {u v : Txn}, s'.txns = (s.setTxn actor v).txns →
      s₁.db.enqueueOrderSequence ≤ s'.db.enqueueOrderSequence → s.txns actor = some u →
      (s₁.txns actor = none → v.phase.active → v.phase ≠ .started →
        s₁.db.enqueueOrderSequence ≤ v.enqueueOrder) → s₁.Since s' := by
    intro actor u v htxns hsequence hu hplace
    refine ⟨hsequence, fun tid hidle => ?_, fun tid t hnew ht hactive hphase => ?_⟩
    · rw [htxns] at hidle
      by_cases hactor : tid = actor
      · rw [hactor, s.setTxn_self] at hidle
        simp at hidle
      · exact h.started tid ((s.setTxn_other v hactor).symm.trans hidle)
    · rw [htxns] at ht
      rcases System.setTxn_eq_some.mp ht with ⟨rfl, rfl⟩ | ⟨-, ht⟩
      · exact hplace hnew hactive hphase
      · exact h.places tid t hnew ht hactive hphase
  have hgoes : ∀ {actor : Nat} {u v : Txn}, s'.txns = (s.setTxn actor v).txns →
      s₁.db.enqueueOrderSequence ≤ s'.db.enqueueOrderSequence → s.txns actor = some u →
      u.phase.active → u.phase ≠ .started → v.enqueueOrder = u.enqueueOrder → s₁.Since s' :=
    fun htxns hsequence hu hactive hphase hplace => hset htxns hsequence hu fun hnew _ _ =>
      hplace ▸ h.places _ _ hnew hu hactive hphase
  cases hstep with
  | tick => exact ⟨h.sequence, h.started, h.places⟩
  | @start actor op hidle =>
    refine ⟨h.sequence, fun tid hnone => ?_, fun tid t hnew ht hactive hphase => ?_⟩
    · by_cases hactor : tid = actor
      · exact hactor ▸ h.started actor hidle
      · exact h.started tid ((s.setTxn_other _ hactor).symm.trans hnone)
    · rcases System.setTxn_eq_some.mp ht with ⟨rfl, rfl⟩ | ⟨-, ht⟩
      · exact absurd rfl hphase
      · exact h.places tid t hnew ht hactive hphase
  | @snapshot actor t ht hphase =>
    refine hset rfl (h.sequence.trans ?_) ht fun _ _ _ => h.sequence
    show s.db.enqueueOrderSequence ≤ s.db.enqueueOrderSequence + _
    split <;> omega
  | pass ht hphase | reject ht hphase | pick ht hphase | count ht hphase | lockCounter ht hphase =>
    exact hgoes rfl h.sequence ht (by rw [hphase]; rfl) (by simp [hphase]) rfl
  | @commit actor t ht hphase =>
    have hactive : t.phase.active := by rw [hphase]; rfl
    obtain ⟨heffect, -⟩ := (hinv.txn actor t ht hactive).execute_effect hinv.valid order
    refine hset rfl (h.sequence.trans heffect.sequence_le) ht fun _ hended _ => ?_
    exact absurd hended Bool.false_ne_true
  | abort ht => exact hset rfl h.sequence ht fun _ hended _ => absurd hended Bool.false_ne_true

namespace Service

variable {s₁ s s' : Service} {id : Nat}

/-- The same for threads, and for what they have committed. -/
structure Since (s₁ s : Service) : Prop where
  system : s₁.system.Since s.system
  kept : s₁.commits <+: s.commits
  sent : ∀ id thread tid, s.threads id = some thread → thread.sent = some tid →
    s₁.system.txns tid = none ∨ ∃ old, s₁.threads id = some old ∧ old.sent = some tid
  stored : ∀ tid e row, s₁.system.txns tid = none → (tid, e) ∈ s.commits → e.Inserts row →
    s₁.system.db.enqueueOrderSequence ≤ row.enqueueOrder

/-- A thread that has sent what it had sent before. -/
theorem Since.setThread (h : s₁.Since s) {new : Option Thread}
    (hsent : ∀ thread tid, new = some thread → thread.sent = some tid →
      ∃ old, s.threads id = some old ∧ old.sent = some tid) :
    ∀ other thread tid, (s.setThread id new).threads other = some thread →
      thread.sent = some tid → s₁.system.txns tid = none ∨
        ∃ old, s₁.threads other = some old ∧ old.sent = some tid := by
  intro other thread tid hthread htid
  rcases setThread_eq_some.mp hthread with ⟨rfl, hthis⟩ | ⟨-, hold⟩
  · obtain ⟨old, hold, hsame⟩ := hsent thread tid hthis htid
    exact h.sent other old tid hold hsame
  · exact h.sent other thread tid hold htid

/-- What a new thread has sent is new. -/
theorem Since.sent_new (h : s₁.Since s) {thread : Thread} {tid : Nat} (hnew : s₁.threads id = none)
    (hthread : s.threads id = some thread) (hsent : thread.sent = some tid) :
    s₁.system.txns tid = none := by
  refine (h.sent id thread tid hthread hsent).resolve_right ?_
  rintro ⟨old, hold, -⟩
  rw [hnew] at hold
  simp at hold

theorem Since.step {a : ServiceAction} (h : s₁.Since s) (hinv : s.Inv order)
    (hstep : Service.Step order s a s') : s₁.Since s' := by
  have hsystem := hinv.reachable.inv
  cases hstep with
  | @system a system hstart hstep =>
    have hstep' := Retsu.step_cases hstep
    refine ⟨h.system.step hsystem hstep', h.kept.trans (List.prefix_append _ _), h.sent,
      fun tid e row hnew hmem hinserts => ?_⟩
    rcases List.mem_append.mp hmem with hold | hcommit
    · exact h.stored tid e row hnew hold hinserts
    · cases hstep' with
      | @commit actor t ht hphase =>
        obtain ⟨u, hu, hpair⟩ := List.mem_map.mp hcommit
        obtain rfl : t = u := Option.some.inj (ht.symm.trans (Option.mem_toList.mp hu))
        obtain ⟨rfl, rfl⟩ := Prod.mk.inj hpair
        have hactive : t.phase.active := by rw [hphase]; rfl
        rw [(hsystem.txn actor t ht hactive).inserts hsystem.valid hinserts]
        exact h.system.places actor t hnew ht hactive (by simp [hphase])
      | _ => simp at hcommit
  | spawn hidle =>
    exact ⟨h.system, h.kept, h.setThread fun thread tid hthis htid => by
      obtain rfl := Option.some.inj hthis
      simp at htid, h.stored⟩
  | readName hthread | readDetails hthread | reply hthread | fail hthread =>
    exact ⟨h.system, h.kept, h.setThread fun thread tid hthis htid => by
      obtain rfl := Option.some.inj hthis
      exact ⟨_, hthread, htid⟩, h.stored⟩
  | @send id tid thread op system next hthread hsent hprogram hstep =>
    have hstep := Retsu.step_cases hstep
    have hidle : s.system.txns tid = none := by
      cases hstep with
      | start hidle => exact hidle
    refine ⟨h.system.step hsystem hstep, h.kept, fun other thread' tid' hthread' htid => ?_,
      h.stored⟩
    rcases setThread_eq_some.mp hthread' with ⟨rfl, hthis⟩ | ⟨-, hold⟩
    · obtain rfl := Option.some.inj hthis
      obtain rfl := Option.some.inj htid
      exact Or.inl (h.system.started tid hidle)
    · exact h.sent other thread' tid' hold htid
  | drop => exact ⟨h.system, h.kept, h.setThread fun thread tid hthis => by simp at hthis, h.stored⟩

theorem since_of_execution (h₁ : s₁.Reachable order)
    (hrun : Execution (Service.step order) anyAction s₁ s) : s₁.Since s := by
  refine hrun.invariant ⟨⟨Int.le_refl _, fun _ h => h, fun tid t hnew ht => by simp [hnew] at ht⟩,
    List.prefix_rfl, fun id thread tid hthread hsent => Or.inr ⟨thread, hthread, hsent⟩, ?_⟩
    fun s a s' hbefore h _ hstep => h.step (Reachable.inv (h₁.trans hbefore)) (step_cases hstep)
  intro tid e row hnew hmem
  obtain ⟨t, ht, -⟩ := h₁.inv.committed _ hmem
  simp [hnew] at ht

end Service

/-! ## First come, first served -/

/-- An enqueue that has answered has stored the row of its message. -/
theorem Event.Sound.inserts {e : Event} (h : e.Sound) {queueId : Uuid} {message : Message}
    {ttl : UInt32} (hop : e.op = .enqueueMessage queueId message ttl)
    (hresponse : e.response = .enqueueMessage) : ∃ row, row.id = message.id ∧ e.Inserts row := by
  obtain ⟨before, now, op, response, after⟩ := e
  obtain ⟨queues, -, heffect⟩ := h.effect
  obtain rfl : op = _ := hop
  obtain rfl : response = _ := hresponse
  dsimp only at heffect
  cases heffect with
  | @enqueued _ _ _ enqueueOrder =>
    exact ⟨message.row queueId ttl enqueueOrder now, rfl, rfl,
      List.mem_append_right _ List.mem_cons_self⟩

variable {s₁ s : Service} {id : Nat} {thread : Thread} {drawn : Uuid} {response : HttpResponse}

/-- The event of a request to enqueue that has been answered with success. -/
theorem Service.Inv.accepted (h : s.Inv order) (hthread : s.threads id = some thread)
    {path : QueuePath} {request : EnqueueMessageRequest}
    (hresponded : thread.responded? =
      some (.enqueueMessage (.ok path) (.ok request), drawn, response))
    (hstatus : response.status.isSuccess) :
    ∃ tid e row, thread.sent = some tid ∧ (tid, e) ∈ s.commits ∧ row.id = drawn ∧
      e.Inserts row := by
  obtain ⟨recorded, hends⟩ := h.ends hthread hresponded
  obtain ⟨path', request', message, queue, hpath, hrequest, hnew, hpast, hbody⟩ :=
    hends.enqueued hstatus
  obtain ⟨rfl, -⟩ := Message.new_eq_ok hnew
  obtain ⟨tid, e, hsent, hc, hop, hresult⟩ := h.ran hthread
    (hpast ▸ List.mem_cons_of_mem _ List.mem_cons_self)
  have hlog : e ∈ s.system.log := h.log ▸ List.mem_map_of_mem hc
  obtain ⟨row, hid, hinserts⟩ := ((Trace.of_log h.reachable).sound hlog).inserts hop hresult
  exact ⟨tid, e, row, hsent, hc, hid, hinserts⟩

/-- The event of a message that has been handed to a client. -/
theorem Service.Inv.handed (h : s.Inv order) (hthread : s.threads id = some thread)
    {path : QueuePath} {message : DequeueMessageResponse}
    (hhanded : thread.Handed path drawn message) :
    ∃ tid e outcome, thread.sent = some tid ∧ (tid, e) ∈ s.commits ∧
      e.op = .dequeueMessage path.queueId drawn ∧ e.response = .dequeueMessage outcome ∧
      e.response.delivered = some message.id := by
  obtain ⟨response, hresponded, hbody⟩ := hhanded
  obtain ⟨recorded, hends⟩ := h.ends hthread hresponded
  obtain ⟨path', delivered, queueName, deadLettered, hpath, rfl, hpast⟩ := hends.dequeued hbody
  obtain rfl := Except.ok.inj hpath
  obtain ⟨tid, e, hsent, hc, hop, hresult⟩ := h.ran hthread (hpast ▸ List.mem_cons_self)
  exact ⟨tid, e, _, hsent, hc, hop, hresult, by rw [hresult]; rfl⟩

/-- **First come, first served.**  A request to enqueue has been answered with success before
    another one is made: in every interleaving of what else goes on, the first message has the
    lower place, and a client is handed the second one while the first is deliverable and not less
    urgent only if, between snapshot and commit of its dequeue, the first was locked by another
    transaction or not deliverable. -/
theorem first_come_first_served (h₁ : s₁.Reachable order) (hthread : s₁.threads id = some thread)
    {path : QueuePath} {request : EnqueueMessageRequest}
    (hresponded : thread.responded? =
      some (.enqueueMessage (.ok path) (.ok request), drawn, response))
    (hstatus : response.status.isSuccess)
    (hrun : Execution (Service.step order) anyAction s₁ s) {id' : Nat} {thread' : Thread}
    (hnew : s₁.threads id' = none) (hthread' : s.threads id' = some thread') {path' : QueuePath}
    {request' : EnqueueMessageRequest} {drawn' : Uuid} {response' : HttpResponse}
    (hresponded' : thread'.responded? =
      some (.enqueueMessage (.ok path') (.ok request'), drawn', response'))
    (hstatus' : response'.status.isSuccess) :
    (∀ m ∈ s.system.db.queueMessage, ∀ m' ∈ s.system.db.queueMessage, m.id = drawn →
      m'.id = drawn' → m.enqueueOrder < m'.enqueueOrder) ∧
    ∀ client dequeued path'' handle message, s.threads client = some dequeued →
      dequeued.Handed path'' handle message → message.id = drawn' →
      ∃ tid t, dequeued.sent = some tid ∧ s.system.txns tid = some t ∧
        (∃ s₀, TookSnapshot order s₀ tid s.system) ∧
        ∀ s₀, TookSnapshot order s₀ tid s.system →
          ∃ queue, targetQueue s₀.db path''.queueId = some queue ∧
            ∀ m ∈ s₀.db.queueMessage, m.id = drawn → isCandidate queue t.now m →
              (∀ m' ∈ s₀.db.queueMessage, m'.id = drawn' → m'.priority ≤ m.priority) →
              PassedOver order s₀ s.system tid drawn (isCandidate queue t.now) := by
  have hinv₁ := h₁.inv
  have hinv := Service.Reachable.inv (h₁.trans hrun)
  have hsince := Service.since_of_execution h₁ hrun
  have htrace := Trace.of_log hinv.reachable
  -- both have been stored, in this order
  obtain ⟨tid₁, e, row, -, hc, rfl, hinserts⟩ := hinv₁.accepted hthread hresponded hstatus
  obtain ⟨tid₂, e', row', hsent', hc', rfl, hinserts'⟩ := hinv.accepted hthread' hresponded' hstatus'
  have he₁ : e ∈ s₁.system.log := hinv₁.log ▸ List.mem_map_of_mem hc
  have he : e ∈ s.system.log := hinv.log ▸ List.mem_map_of_mem (hsince.kept.subset hc)
  have he' : e' ∈ s.system.log := hinv.log ▸ List.mem_map_of_mem hc'
  have hplaces : row.enqueueOrder < row'.enqueueOrder :=
    lt_of_lt_of_le ((Trace.of_log hinv₁.reachable).place_lt e he₁ row hinserts)
      (hsince.stored tid₂ e' row' (hsince.sent_new hnew hthread' hsent') hc' hinserts')
  -- wherever they are live, they have these places
  have hlive : ∀ {s₀ : System}, Reachable order s₀ → Execution (step order) anyAction s₀ s.system →
      ∀ m ∈ s₀.db.queueMessage, ∀ m' ∈ s₀.db.queueMessage, m.id = row.id → m'.id = row'.id →
        m.enqueueOrder < m'.enqueueOrder := by
    intro s₀ h₀ hafter m hm m' hm' hid hid'
    obtain ⟨f, hf, stored, hstored, hstoredId, horder⟩ := (Trace.of_log h₀).inserted m hm
    obtain ⟨f', hf', stored', hstored', hstoredId', horder'⟩ := (Trace.of_log h₀).inserted m' hm'
    have hsame := htrace.place_unique ((log_kept hafter).subset hf) he hstored hinserts
      (hstoredId.trans hid)
    have hsame' := htrace.place_unique ((log_kept hafter).subset hf') he' hstored' hinserts'
      (hstoredId'.trans hid')
    omega
  refine ⟨hlive hinv.reachable .refl, ?_⟩
  intro client dequeued path'' handle message hdequeued hhanded hid
  obtain ⟨tid, d, outcome, hsent, hd, hop, houtcome, hdelivered⟩ := hinv.handed hdequeued hhanded
  rw [hid] at hdelivered
  obtain ⟨t, ht, htop, -, hphase⟩ := hinv.committed _ hd
  rw [houtcome] at hphase hdelivered
  have hsnapshot : s.system.HasSnapshot tid := ⟨t, ht, by simp [hphase], by simp [hphase]⟩
  refine ⟨tid, t, hsent, ht, exists_tookSnapshot hinv.reachable hsnapshot,
    fun s₀ htook => ?_⟩
  obtain ⟨hsnapshot, hpassed⟩ := htook.passes hinv.reachable ht hphase (htop.trans hop)
  obtain ⟨queue, htarget, -⟩ := hsnapshot _ hdelivered
  refine ⟨queue, htarget, fun m hm hmid hwanted hurgent => ?_⟩
  have hreason := hpassed queue htarget m hm hwanted fun m' hm' hthis => ?_
  · exact hmid ▸ hreason
  · have hid' : m'.id = row'.id := Option.some.inj (hthis.symm.trans hdelivered)
    exact deliveryOrder_lt (hurgent m' hm' hid')
      (hlive htook.reachable htook.run m hm m' hm' hmid hid')

/-- A queue, and a message that has been accepted. -/
def firstCome : List ServiceAction :=
  [.spawn 1 (.request (.createQueue (.ok ⟨"orders", none, none, none⟩)) 1)] ++
    committed 1 1 [] 0 ++ [.reply 1] ++
    [.spawn 2 (.request (.enqueueMessage (.ok ⟨1⟩) (.ok ⟨"first", "HIGH", none⟩)) 7), .read 2 0] ++
    committed 2 2 [] 1 ++ [.reply 2]

/-- A second message, and two dequeues at the same time; the first one has locked its message, the
    second one is about to take its snapshot. -/
def secondCome : List ServiceAction :=
  [.spawn 3 (.request (.enqueueMessage (.ok ⟨1⟩) (.ok ⟨"second", "HIGH", none⟩)) 8), .read 3 0] ++
    committed 3 3 [] 1 ++ [.reply 3] ++
    [.spawn 4 (.request (.dequeueMessage (.ok ⟨1⟩)) 100), .send 4 4, .system (.snapshot 4),
      .system (.visit 4 .lease), .spawn 5 (.request (.dequeueMessage (.ok ⟨1⟩)) 101), .send 5 5]

/-- It goes on, while the first one has not committed. -/
def notFirstServed : List ServiceAction :=
  [.system (.visit 5 .lease), .system (.visit 5 .lease), .system (.count 5),
    .system (.lockCounter 5), .system (.commit 5), .reply 5]

/-- The second message has been handed to a client, although the first one came before it and is
    deliverable in the snapshot; there was a reason. -/
theorem first_come_first_served_notFirstServed :
    ∃ (s₀ : System) (s : Service) (client : Thread) (t : Txn) (queue : QueueRow) (m : QueueMessage),
      s.threads 5 = some client ∧ client.Handed ⟨1⟩ 101 ⟨8, "second", "HIGH", 101, 1⟩ ∧
      client.sent = some 5 ∧ s.system.txns 5 = some t ∧ TookSnapshot .deleteFirst s₀ 5 s.system ∧
      targetQueue s₀.db 1 = some queue ∧ m ∈ s₀.db.queueMessage ∧ m.id = 7 ∧
      isCandidate queue t.now m ∧
      PassedOver .deleteFirst s₀ s.system 5 7 (isCandidate queue t.now) := by
  have hfirst : (runAllowed (Service.step .deleteFirst) anyAction Service.initial firstCome).map
      (fun s => ((s.threads 2).map (·.responded?), (s.threads 3).isNone)) =
        some (some (some (.enqueueMessage (.ok ⟨1⟩) (.ok ⟨"first", "HIGH", none⟩), 7,
          .json .created (.enqueued ⟨7⟩))), true) := by
    decide +kernel
  have hsecond : ((runAllowed (Service.step .deleteFirst) anyAction Service.initial
      (firstCome ++ secondCome)).bind fun s => (targetQueue s.system.db 1).map fun queue =>
        s.system.db.queueMessage.map fun m => (m.id, isCandidate queue 0 m, m.priority)) =
          some [(7, true, 3), (8, true, 3)] := by
    decide +kernel
  have hrun : ∀ answer ∈ ([
      (3, 3, .enqueueMessage (.ok ⟨1⟩) (.ok ⟨"second", "HIGH", none⟩), 8,
        .json .created (.enqueued ⟨8⟩)),
      (5, 5, .dequeueMessage (.ok ⟨1⟩), 101, .json .ok (.dequeued ⟨8, "second", "HIGH", 101, 1⟩))] :
        List (Nat × Nat × Api.Request × Uuid × HttpResponse)),
      (runAllowed (Service.step .deleteFirst) anyAction Service.initial
        (firstCome ++ (secondCome ++ .system (.snapshot 5) :: notFirstServed))).map (fun s =>
          (s.threads answer.1).map fun thread => (thread.sent, thread.responded?)) =
        some (some (some answer.2.1, some answer.2.2)) := by
    decide +kernel
  have hclock : (runAllowed (Service.step .deleteFirst) anyAction Service.initial
      (firstCome ++ (secondCome ++ .system (.snapshot 5) :: notFirstServed))).map (fun s =>
        (s.system.txns 5).map (·.now)) = some (some 0) := by
    decide +kernel
  obtain ⟨s₁, hs₁, hseen₁⟩ := Option.map_eq_some_iff.mp hfirst
  obtain ⟨hanswered₁, hidle⟩ := Prod.mk.inj hseen₁
  obtain ⟨thread₁, hthread₁, hresponded₁⟩ := Option.map_eq_some_iff.mp hanswered₁
  obtain ⟨s, hs, hseen⟩ := Option.map_eq_some_iff.mp (hrun _ List.mem_cons_self)
  have hseen' := hrun _ (List.mem_cons_of_mem _ List.mem_cons_self)
  rw [hs, Option.map_some, Option.some.injEq] at hseen' hclock
  obtain ⟨thread₂, hthread₂, hthis₂⟩ := Option.map_eq_some_iff.mp hseen
  obtain ⟨-, hresponded₂⟩ := Prod.mk.inj hthis₂
  obtain ⟨client, hthread, hthis⟩ := Option.map_eq_some_iff.mp hseen'
  obtain ⟨hsent, hresponded⟩ := Prod.mk.inj hthis
  have hhanded : client.Handed ⟨1⟩ 101 ⟨8, "second", "HIGH", 101, 1⟩ := ⟨_, hresponded, rfl⟩
  -- the messages where the second dequeue takes its snapshot
  obtain ⟨s₂, hs₂, hseen₂⟩ := Option.bind_eq_some_iff.mp hsecond
  obtain ⟨queue, htarget, hrows⟩ := Option.map_eq_some_iff.mp hseen₂
  obtain ⟨m, rest, hmessages, hm, hrest⟩ := List.map_eq_cons_iff.mp hrows
  obtain ⟨m', rest', rfl, hm', hnil⟩ := List.map_eq_cons_iff.mp hrest
  obtain rfl := List.map_eq_nil_iff.mp hnil
  simp only [Prod.mk.injEq] at hm hm'
  have hmem : m ∈ s₂.system.db.queueMessage := by
    rw [hmessages]
    exact List.mem_cons_self
  -- the run, up to there and from there
  have hrest := runAllowed_rest hs₁ hs
  have hlater := execution_of_runAllowed hrest
  have hsecond := runAllowed_rest hs₁ hs₂
  obtain ⟨s₃, -, hsnapshot, hafter⟩ := runAllowed_cons.mp (runAllowed_rest hsecond hrest)
  obtain ⟨system, hsystem, rfl⟩ := Option.map_eq_some_iff.mp hsnapshot
  have h₂ := (execution_of_runAllowed hs₁).trans (execution_of_runAllowed hsecond)
  have htook : TookSnapshot .deleteFirst s₂.system 5 s.system :=
    ⟨system, (Service.Reachable.inv h₂).reachable, hsystem,
      Service.system_of_execution (execution_of_runAllowed hafter)⟩
  obtain ⟨tid, t, hsent', ht, -, hall⟩ := (first_come_first_served (execution_of_runAllowed hs₁)
    hthread₁ hresponded₁ rfl hlater (Option.isNone_iff_eq_none.mp hidle) hthread₂ hresponded₂
    rfl).2 5 client ⟨1⟩ 101 _ hthread hhanded rfl
  obtain rfl : tid = 5 := Option.some.inj (hsent'.symm.trans hsent)
  rw [ht, Option.map_some, Option.some.injEq] at hclock
  have hcandidate : isCandidate queue t.now m := hclock ▸ hm.2.1
  obtain ⟨found, hfound, hpassed⟩ := hall s₂.system htook
  obtain rfl : queue = found := Option.some.inj (htarget.symm.trans hfound)
  refine ⟨s₂.system, s, client, t, queue, m, hthread, hhanded, hsent, ht, htook, htarget, hmem, hm.1,
    hcandidate, hpassed m hmem hm.1 hcandidate fun other hother _ => ?_⟩
  rw [hmessages, List.mem_cons, List.mem_singleton] at hother
  rcases hother with rfl | rfl <;> omega

end Retsu
