/-
  What consumers may conclude from their acknowledgements.

  The response is the same whether the acknowledge has removed the message or has found nothing to
  remove.  The lease makes the difference: for as long as it runs, nothing but an acknowledge takes
  the message away.  So a consumer that has its response before the lease ends knows that the
  message has been acknowledged, and will not come back.
-/
import Retsu.ServiceOrder

namespace Retsu

open Relational Concurrency UseCases Api

variable {order : TriggerOrder}

/-! ## A running lease -/

/-- A running lease ends with an acknowledge only. -/
theorem Effect.lease_kept {queues : List QueueRow} {db db' : Database} {now : Int} {op : Operation}
    {response : Response} (h : db.Valid) (heffect : Effect queues db now op response db')
    {m : QueueMessage} (hm : m ∈ db.queueMessage) (hstate : m.state = .inFlight)
    (hrunning : now < m.availableAfter) :
    m ∈ db'.queueMessage ∨
      (∃ queueId receiptHandle, op = .acknowledgeMessage queueId m.id receiptHandle) ∧
        response = .acknowledgeMessage .acknowledged := by
  by_cases hgone : ∀ m' ∈ db'.queueMessage, m'.id ≠ m.id
  · right
    cases heffect.exit h hm hgone with
    | acknowledged hack =>
      simp only [isAcknowledgeable, decide_eq_true_eq] at hack
      obtain ⟨rfl, -⟩ := hack
      exact ⟨⟨_, _, rfl⟩, rfl⟩
    | deadLettered hqueue hexhausted =>
      simp only [isDeadLetterCandidate, decide_eq_true_eq] at hexhausted
      omega
    | expired hexpired =>
      simp only [isExpired, hstate, reduceCtorEq, false_or, true_and, decide_eq_true_eq] at hexpired
      omega
  · left
    push Not at hgone
    obtain ⟨m', hm', hid⟩ := hgone
    cases heffect.origin h hm' with
    | kept hkept => exact eq_of_key_eq h.messages.ids hkept hm hid ▸ hm'
    | enqueued hfresh => exact absurd hid.symm (hfresh m hm)
    | leased hqueue hchecked hfree hcandidate =>
      obtain rfl := eq_of_key_eq h.messages.ids hfree hm hid
      simp only [isCandidate, hstate, reduceCtorEq, false_or, decide_eq_true_eq] at hcandidate
      omega

theorem Step.clock_le {s s' : System} {a : Action} (hstep : Step order s a s') :
    s.clock ≤ s'.clock := by
  cases hstep with
  | tick htime => exact htime
  | _ => exact Int.le_refl _

theorem clock_le_of_execution {s s' : System} (hrun : Execution (step order) anyAction s s') :
    s.clock ≤ s'.clock :=
  hrun.invariant (I := fun s' => s.clock ≤ s'.clock) (Int.le_refl _)
    fun _ _ _ _ ih _ hstep => ih.trans (step_cases hstep).clock_le

/-- The time of a transaction is that of its start. -/
theorem now_le_clock {s : System} (h : Retsu.Reachable order s) :
    ∀ tid t, s.txns tid = some t → t.now ≤ s.clock := by
  refine h.invariant (I := fun s => ∀ tid t, s.txns tid = some t → t.now ≤ s.clock)
    (by simp [System.initial]) fun s a s' _ ih _ hstep => ?_
  intro tid t' ht'
  cases step_cases hstep with
  | tick htime => exact (ih tid t' ht').trans htime
  | start =>
    rcases System.setTxn_eq_some.mp ht' with ⟨rfl, rfl⟩ | ⟨-, ht'⟩
    · exact Int.le_refl _
    · exact ih tid t' ht'
  | snapshot ht | pass ht | reject ht | pick ht | count ht | lockCounter ht | commit ht
  | abort ht =>
    rcases System.setTxn_eq_some.mp ht' with ⟨rfl, rfl⟩ | ⟨-, ht'⟩
    · have hold := ih tid _ ht
      exact hold
    · exact ih tid t' ht'

/-- While the lease runs, the message is as it was leased, or has been acknowledged. -/
theorem lease_runs {s : System} (h : Retsu.Reachable order s) :
    ∀ e ∈ s.log, ∀ lease, e.Leased lease → s.clock < lease.availableAfter →
      lease ∈ s.db.queueMessage ∨ ∃ e' ∈ s.log, e'.Acknowledges lease.id := by
  refine h.invariant (I := fun s => ∀ e ∈ s.log, ∀ lease, e.Leased lease →
    s.clock < lease.availableAfter →
      lease ∈ s.db.queueMessage ∨ ∃ e' ∈ s.log, e'.Acknowledges lease.id)
    (by simp [System.initial]) fun s a s' hrun ih _ hstep => ?_
  have hinv := Reachable.inv hrun
  have hstep := step_cases hstep
  rcases hstep.committed with ⟨hlog, -, hmessages, -⟩ | ⟨tid, t, rfl, ht, hactive, rfl⟩
  · rw [hlog, hmessages]
    exact fun e he lease hlease hrunning => ih e he lease hlease (hstep.clock_le.trans_lt hrunning)
  have hthis := hinv.txn tid t ht hactive
  obtain ⟨heffect, -⟩ := hthis.execute_effect hinv.valid order
  refine List.forall_mem_append.mpr ⟨fun e he lease hlease hrunning => ?_,
    List.forall_mem_singleton.mpr fun lease hlease _ => Or.inl hlease.stored⟩
  rcases ih e he lease hlease hrunning with hlive | ⟨e', he', hack⟩
  · obtain ⟨hstate, -⟩ := leases_kept hrun e he lease hlease lease hlive rfl
    refine (heffect.lease_kept hinv.valid hlive hstate (hthis.now_le.trans_lt hrunning)).imp_right
      fun hack => ⟨s.commitEvent order t, List.mem_append_right _ List.mem_cons_self, hack⟩
  · exact Or.inr ⟨e', List.mem_append_left _ he', hack⟩

/-- An acknowledge that has answered while the lease of its receipt handle runs: the message has
    been acknowledged, by it or by another one. -/
theorem acknowledged_while_leased {s₁ s : System} {tid : Nat} {t : Txn} {e : Event}
    {lease : QueueMessage} {receiptHandle : Uuid} {response : Response}
    (h₁ : Retsu.Reachable order s₁) (hrun : Execution (step order) anyAction s₁ s) (he : e ∈ s₁.log)
    (hlease : e.Leased lease) (hhandle : lease.receiptHandle = some receiptHandle)
    (hnew : s₁.txns tid = none) (ht : s.txns tid = some t)
    (hop : t.op = .acknowledgeMessage lease.queueId lease.id receiptHandle)
    (hphase : t.phase = .committed response) (hrunning : s.clock < lease.availableAfter) :
    ∃ e' ∈ s.log, e'.Acknowledges lease.id := by
  have h := Execution.trans h₁ hrun
  have hno : ¬s₁.Decided tid := by
    rintro ⟨u, hu, -⟩
    simp [hnew] at hu
  have hyes : s.Decided tid := ⟨t, ht, by rw [Txn.Decided, hphase]; trivial⟩
  obtain ⟨s₀, a, s₂, hbefore, -, hstep, hno, hyes, hafter⟩ :=
    Execution.turning (P := fun s => s.Decided tid) hrun hno hyes
  have h₀ := Execution.trans h₁ hbefore
  have hmoment : TakesEffect order s₀ tid s := ⟨a, s₂, h₀, hno, hstep, hyes, hafter⟩
  have hrest : Execution (step order) anyAction s₀ s :=
    (Execution.step .refl trivial hstep).trans hafter
  rcases hmoment.answer ht hop hphase with ⟨rfl, -⟩ | ⟨-, hnot⟩
  · obtain ⟨-, e', he', hop', -, hresponse⟩ := committed_answer h tid t _ _ _ _ ht hop hphase
    exact ⟨e', he', ⟨_, _, hop'.trans hop⟩, hresponse⟩
  · -- it has found nothing, although the lease was running
    have hlive := lease_runs h₀ e ((log_kept hbefore).subset he) lease hlease
      ((clock_le_of_execution hrest).trans_lt hrunning)
    rcases hlive with hlive | ⟨e', he', hack⟩
    · refine absurd ⟨lease, hlive, ?_⟩ hnot
      have hnow := (now_le_clock h tid t ht).trans_lt hrunning
      rw [isAcknowledgeable, decide_eq_true_eq]
      exact ⟨rfl, rfl, hhandle, hnow⟩
    · exact ⟨e', (log_kept hrest).subset he', hack⟩

/-! ## Acknowledgements -/

/-- The message has been acknowledged, has left in no other way and is gone for good. -/
structure Service.Acknowledged (s : Service) (id : Uuid) : Prop where
  gone : s.system.Gone id
  once : moved s.system.log .messagesAcknowledged (fun header => header.id = id) = 1
  archived : moved s.system.log .messagesDeadLettered (fun header => header.id = id) = 0
  expired : moved s.system.log .messagesExpired (fun header => header.id = id) = 0

/-- The message that has been acknowledged is the one that has moved. -/
theorem Event.Sound.moves_acknowledged {e : Event} (h : e.Sound) {id : Uuid}
    (hack : e.Acknowledges id) :
    ∃ move ∈ e.moves, move.instrument = .messagesAcknowledged ∧ move.header.id = id := by
  obtain ⟨⟨queueId, receiptHandle, hop⟩, hresponse⟩ := hack
  obtain ⟨before, now, op, response, after⟩ := e
  obtain ⟨queues, -, heffect⟩ := h.effect
  obtain rfl : op = _ := hop
  obtain rfl : response = _ := hresponse
  dsimp only at heffect
  cases heffect with
  | @acknowledged _ _ _ r shards hr hack =>
    simp only [isAcknowledgeable, decide_eq_true_eq] at hack
    obtain ⟨hid, -⟩ := hack
    refine ⟨r.move .messagesAcknowledged, List.mem_map_of_mem (mem_removedRows.mpr ⟨hr, ?_⟩), rfl,
      hid⟩
    intro m hm heq
    have hother := (List.mem_filter.mp hm).2
    simp [heq, hid] at hother

/-- A message that has been acknowledged has left once, and in no other way. -/
theorem Service.Inv.acknowledged {s : Service} (h : s.Inv order) {id : Uuid}
    (hstored : ∃ e ∈ s.system.log, ∃ m, e.Stores m ∧ m.id = id)
    (hack : ∃ e ∈ s.system.log, e.Acknowledges id) : s.Acknowledged id := by
  have htrace := Trace.of_log h.reachable
  obtain ⟨e, he, m, hstores, rfl⟩ := hstored
  obtain ⟨e', he', hack⟩ := hack
  obtain ⟨message, ttl, hop, hid, -⟩ := hstores.enqueues
  obtain ⟨enqueueOrder, honce⟩ := htrace.enqueued_once he hop hstores.stored
  replace honce := honce (fun header => header.id = m.id) (decide_eq_true hid) fun header heq =>
    (of_decide_eq_true heq).trans hid.symm
  have hbalanced := (htrace.balanced fun header => header.id = m.id).messages
  have hmoved : 0 < moved s.system.log .messagesAcknowledged (fun header => header.id = m.id) := by
    obtain ⟨move, hmove, hinstrument, hheader⟩ := (htrace.sound he').moves_acknowledged hack
    exact List.countP_pos_iff.mpr ⟨move, List.mem_flatMap.mpr ⟨e', he', hmove⟩, by
      simp [hinstrument, hheader]⟩
  refine ⟨acknowledged_gone h.reachable e' he' m.id hack, ?_, ?_, ?_⟩
  · omega
  · omega
  · omega

variable {s₁ s : Service} {id id' : Nat} {consumer thread : Thread} {path : QueuePath}
  {drawn drawn' : Uuid} {message : DequeueMessageResponse} {response : HttpResponse}

/-- What a request has asked and been answered, when its acknowledge has been answered. -/
theorem Task.Ends.acknowledged {path : MessagePath} {body : AcknowledgeMessageRequest}
    {past : Exchanged} {recorded : List Measurement}
    (h : (Task.request (.acknowledgeMessage (.ok path) (.ok body)) drawn).Ends past
      (.response response, recorded))
    (hstatus : response.status.isSuccess) :
    ∃ outcome, ⟨.run (.acknowledgeMessage path.queueId path.messageId body.receiptHandle),
      .ok outcome⟩ ∈ past := by
  generalize htask : Task.request (.acknowledgeMessage (.ok path) (.ok body)) drawn = task at h
  generalize hended : (Outcome.response response, recorded) = ended at h
  have hclient := (response.status.disjoint.1 hstatus).1
  have hserver := (response.status.disjoint.1 hstatus).2
  cases h with
  | refused h =>
    obtain rfl := Outcome.response.inj (Prod.mk.inj hended).1
    rcases Request.handler_error h with herror | ⟨source, rfl⟩
    · exact absurd herror hclient
    · exact absurd rfl hserver
  | @acknowledgeMessage path' body' _ _ _ h =>
    simp only [Task.request.injEq, Request.acknowledgeMessage.injEq, Except.ok.injEq] at htask
    obtain ⟨⟨rfl, rfl⟩, rfl⟩ := htask
    rcases answer_eq_response (Prod.mk.inj hended).1 with ⟨acknowledged, rfl, rfl⟩ | ⟨e, rfl, rfl⟩
    · cases h with
      | acknowledged | unchanged =>
        exact ⟨_, List.mem_cons_of_mem _ List.mem_cons_self⟩
    · cases h with
      | unavailable => exact absurd rfl hserver
      | notFound => exact absurd rfl hclient
      | failed => exact absurd rfl hserver
  | _ => simp at htask

/-- **An acknowledge in time is final.**  A client has been handed a message, an acknowledge with
    its receipt handle is made after that and answered with success, and the lease has not ended
    when it is: in every interleaving of what else goes on, the message has been acknowledged, once
    and for good, and is from then on leased to nobody. -/
theorem acknowledged_in_time (h₁ : s₁.Reachable order) (hconsumer : s₁.threads id = some consumer)
    (hhanded : consumer.Handed path drawn message)
    (hrun : Execution (Service.step order) anyAction s₁ s) (hnew : s₁.threads id' = none)
    (hthread : s.threads id' = some thread)
    (hresponded : thread.responded? = some (.acknowledgeMessage (.ok ⟨path.queueId, message.id⟩)
      (.ok ⟨message.receiptHandle⟩), drawn', response))
    (hstatus : response.status.isSuccess) :
    ∃ e lease, s₁.Delivery consumer path drawn message e lease ∧
      (s.system.clock < lease.availableAfter →
        ∀ s', Execution (Service.step order) anyAction s s' → s'.Acknowledged message.id ∧
          ∀ client later path' drawn' message', s'.threads client = some later →
            later.Handed path' drawn' message' → message'.id = message.id →
            ∃ tid e', later.sent = some tid ∧ (tid, e') ∈ s.commits) := by
  have hinv₁ := h₁.inv
  have hinv := Service.Reachable.inv (h₁.trans hrun)
  have hsince := Service.since_of_execution h₁ hrun
  obtain ⟨e, lease, hdelivery⟩ := hinv₁.delivery hconsumer hhanded
  refine ⟨e, lease, hdelivery, fun hrunning s' hrun' => ?_⟩
  obtain ⟨_, -, hc₁⟩ := hdelivery.committed
  have he : e ∈ s₁.system.log := hinv₁.log ▸ List.mem_map_of_mem hc₁
  -- the acknowledge
  obtain ⟨recorded, hends⟩ := hinv.ends hthread hresponded
  obtain ⟨outcome, hran⟩ := hends.acknowledged hstatus
  obtain ⟨tid, a, hsent, hc, hop, -⟩ := hinv.ran hthread hran
  obtain ⟨t, ht, htop, -, hphase⟩ := hinv.committed _ hc
  have hlease : t.op = .acknowledgeMessage lease.queueId lease.id drawn := by
    rw [htop, hop, hdelivery.queue, hdelivery.id, hdelivery.handle.1]
  have hsystem := Service.system_of_execution hrun
  obtain ⟨f, hf, hack⟩ := acknowledged_while_leased hinv₁.reachable hsystem he hdelivery.leased
    hdelivery.handle.2 (hsince.sent_new hnew hthread hsent) ht hlease hphase hrunning
  rw [hdelivery.id] at hack
  -- what comes after it
  have hinv' := Service.Reachable.inv ((h₁.trans hrun).trans hrun')
  have hlater := log_kept (Service.system_of_execution hrun')
  obtain ⟨e', he', hstores⟩ := hdelivery.stored
  have hstored : e' ∈ s'.system.log := hlater.subset ((log_kept hsystem).subset he')
  refine ⟨hinv'.acknowledged ⟨e', hstored, lease, hstores, hdelivery.id⟩ ⟨f, hlater.subset hf, hack⟩,
    fun client later path' drawn' message' hclient hhanded' hsame => ?_⟩
  obtain ⟨tid', d, outcome', hsent', hd, -, -, hdelivered⟩ := hinv'.handed hclient hhanded'
  refine ⟨tid', d, hsent', ?_⟩
  obtain ⟨rest, hrest⟩ := (Service.since_of_execution (h₁.trans hrun) hrun').kept
  rw [← hrest] at hd
  refine (List.mem_append.mp hd).resolve_right fun hd => ?_
  have hignored := acknowledged_ignored hinv'.reachable
  rw [← hinv'.log, ← hrest, List.map_append, List.pairwise_append] at hignored
  obtain ⟨-, -, hignored⟩ := hignored
  have hd := hignored f (hinv.log ▸ hf) d (List.mem_map_of_mem hd) message.id hack
  exact hd.delivered (hsame ▸ hdelivered)

/-- A message is handed to a client. -/
def handedOut : List ServiceAction :=
  [.spawn 1 (.request (.createQueue (.ok ⟨"orders", none, none, none⟩)) 1)] ++
    committed 1 1 [] 0 ++ [.reply 1] ++
    [.spawn 2 (.request (.enqueueMessage (.ok ⟨1⟩) (.ok ⟨"first", "HIGH", none⟩)) 7), .read 2 0] ++
    committed 2 2 [] 1 ++ [.reply 2] ++
    [.spawn 3 (.request (.dequeueMessage (.ok ⟨1⟩)) 100)] ++ committed 3 3 [.lease] 1 ++ [.reply 3]

/-- It is acknowledged. -/
def acknowledgedOrder : List ServiceAction :=
  [.spawn 4 (.request (.acknowledgeMessage (.ok ⟨1, 7⟩) (.ok ⟨100⟩)) 0), .read 4 0] ++
    committed 4 4 [.delete] 1 ++ [.reply 4]

/-- The client has acknowledged its message in time. -/
theorem acknowledged_in_time_acknowledgedOrder : ∃ s : Service,
    (s.threads 4).map (·.responded?) =
      some (some (.acknowledgeMessage (.ok ⟨1, 7⟩) (.ok ⟨100⟩), 0, .noContent)) ∧
    s.Acknowledged 7 := by
  have hfirst : (runAllowed (Service.step .deleteFirst) anyAction Service.initial handedOut).map
      (fun s => ((s.threads 3).map (·.responded?), (s.threads 4).isNone)) =
        some (some (some (.dequeueMessage (.ok ⟨1⟩), 100,
          .json .ok (.dequeued ⟨7, "first", "HIGH", 100, 1⟩))), true) := by
    decide +kernel
  have hrun : (runAllowed (Service.step .deleteFirst) anyAction Service.initial
      (handedOut ++ acknowledgedOrder)).map (fun s =>
        ((s.threads 4).map (·.responded?), s.system.log.all fun e => s.system.clock ≤ e.now)) =
        some (some (some (.acknowledgeMessage (.ok ⟨1, 7⟩) (.ok ⟨100⟩), 0, .noContent)), true) := by
    decide +kernel
  obtain ⟨s₁, hs₁, hseen₁⟩ := Option.map_eq_some_iff.mp hfirst
  obtain ⟨hconsumer, hidle⟩ := Prod.mk.inj hseen₁
  obtain ⟨consumer, hconsumer, hresponded₁⟩ := Option.map_eq_some_iff.mp hconsumer
  obtain ⟨s, hs, hseen⟩ := Option.map_eq_some_iff.mp hrun
  obtain ⟨hanswered, hnow⟩ := Prod.mk.inj hseen
  obtain ⟨thread, hthread, hresponded⟩ := Option.map_eq_some_iff.mp hanswered
  have h₁ := execution_of_runAllowed hs₁
  have hrest := execution_of_runAllowed (runAllowed_rest hs₁ hs)
  have hhanded : consumer.Handed ⟨1⟩ 100 ⟨7, "first", "HIGH", 100, 1⟩ := ⟨_, hresponded₁, rfl⟩
  obtain ⟨e, lease, hdelivery, hfinal⟩ := acknowledged_in_time h₁ hconsumer hhanded hrest
    (Option.isNone_iff_eq_none.mp hidle) hthread hresponded rfl
  refine ⟨s, hanswered, (hfinal ?_ s .refl).1⟩
  obtain ⟨_, -, hc⟩ := hdelivery.committed
  have he : e ∈ s.system.log := (log_kept (Service.system_of_execution hrest)).subset
    ((Service.Reachable.inv h₁).log ▸ List.mem_map_of_mem hc)
  have hle := of_decide_eq_true (List.all_eq_true.mp hnow e he)
  exact hle.trans_lt hdelivery.leased.running

end Retsu
