/-
  Queue names, for the clients of the API.

  Of all the requests to create a queue under one name, in all processes, at most one is answered
  with success, and from then on the queue is in the table under this name and with this
  identifier.  A conflict is answered only where the name has been taken.
-/
import Retsu.ServiceOrder
import Retsu.Validation

namespace Retsu

open Relational Concurrency UseCases Program Api

/-! ## Creating a queue -/

/-- A create finds the name taken, or takes it. -/
theorem createQueue_names {db : Database} {now : Int} {queue : Queue} :
    ((createQueue db now queue).2 = .createQueue .alreadyExists →
      ∃ q ∈ db.queue, q.name = queue.name.asStr) ∧
    ((createQueue db now queue).2 = .createQueue .created →
      (∀ q ∈ db.queue, q.name ≠ queue.name.asStr) ∧
        ∃ q ∈ (createQueue db now queue).1.queue, q.id = queue.id ∧ q.name = queue.name.asStr) := by
  cases hrow : queue.row now with
  | error e => simp [createQueue, hrow]
  | ok row =>
    obtain ⟨hid, hname⟩ : row.id = queue.id ∧ row.name = queue.name.asStr := by
      simp only [Queue.row, bind_eq_ok, pure_eq_ok] at hrow
      obtain ⟨-, -, -, -, -, -, rfl⟩ := hrow
      exact ⟨rfl, rfl⟩
    cases hinsert : insertQueue db row with
    | error e => simp [createQueue, hrow, hinsert, settle]
    | ok result =>
      simp only [createQueue, hrow, hinsert, settle]
      rw [insertQueue, guard_eq_ok] at hinsert
      obtain ⟨-, hinsert⟩ := hinsert
      split at hinsert
      · rename_i htaken
        rw [pure_eq_ok] at hinsert
        subst hinsert
        simp only [List.any_eq_true, decide_eq_true_eq] at htaken
        exact ⟨fun _ => hname ▸ htaken, fun h => by simp at h⟩
      · rename_i hfree
        simp only [guard_eq_ok, pure_eq_ok] at hinsert
        obtain ⟨-, rfl⟩ := hinsert
        simp only [List.any_eq_true, decide_eq_true_eq, not_exists, not_and] at hfree
        refine ⟨fun h => by simp at h, fun _ => ⟨fun q hq => hname ▸ hfree q hq, ?_⟩⟩
        exact ⟨row, List.mem_append_right _ List.mem_cons_self, hid, hname⟩

/-- Creates take effect on the table as it is when they commit. -/
theorem Reachable.creates {order : TriggerOrder} {s : System} (h : Reachable order s) :
    ∀ e ∈ s.log, ∀ queue, e.op = .createQueue queue →
      createQueue e.before e.now queue = (e.after, e.response) := by
  refine h.invariant (I := fun s => ∀ e ∈ s.log, ∀ queue, e.op = .createQueue queue →
    createQueue e.before e.now queue = (e.after, e.response)) (by simp [System.initial])
    fun s a s' _ ih _ hstep => ?_
  rcases (step_cases hstep).committed with ⟨hsame, -⟩ | ⟨tid, t, rfl, -, -, rfl⟩
  · rw [hsame]
    exact ih
  · refine List.forall_mem_append.mpr ⟨ih, List.forall_mem_singleton.mpr fun queue hop => ?_⟩
    have hop : t.op = .createQueue queue := hop
    show createQueue s.db t.now queue = ((t.execute order s.db).1, (t.execute order s.db).2)
    rw [Txn.execute, hop]

/-- The event has created a queue under this name. -/
def Event.Creates (e : Event) (name : String) : Prop :=
  ∃ queue, e.op = .createQueue queue ∧ e.response = .createQueue .created ∧ queue.name.asStr = name

/-- No name is taken twice. -/
theorem names_taken_once {order : TriggerOrder} {s : System} (h : Reachable order s) :
    s.log.Pairwise fun e e' => ∀ name, e.Creates name → ¬e'.Creates name := by
  refine h.invariant (I := fun s => s.log.Pairwise fun e e' => ∀ name, e.Creates name →
    ¬e'.Creates name) List.Pairwise.nil fun s a s' hrun ih _ hstep => ?_
  have hcreates := Reachable.creates (Reachable.step hrun hstep)
  have htrace := Trace.of_log hrun
  rcases (step_cases hstep).committed with ⟨hsame, -⟩ | ⟨tid, t, rfl, -, -, rfl⟩
  · rw [hsame]
    exact ih
  refine List.pairwise_append.mpr ⟨ih, List.pairwise_singleton _ _, fun e he e' he' => ?_⟩
  obtain rfl := List.mem_singleton.mp he'
  rintro name ⟨queue, hop, hresponse, rfl⟩ ⟨queue', hop', hresponse', hname⟩
  have hfirst := hcreates e (List.mem_append_left _ he) queue hop
  have hsecond := hcreates _ (List.mem_append_right _ List.mem_cons_self) queue' hop'
  obtain ⟨-, q, hq, -, hqname⟩ := createQueue_names.2 ((congrArg Prod.snd hfirst).trans hresponse)
  rw [hfirst] at hq
  -- the name has stayed in the table
  obtain ⟨q', hq', -, hname'⟩ := htrace.names he q hq
  obtain ⟨hfree, -⟩ := createQueue_names.2 ((congrArg Prod.snd hsecond).trans hresponse')
  exact hfree q' hq' (by rw [hname', hqname, hname])

/-! ## Requests to create a queue -/

variable {order : TriggerOrder} {s : Service} {id : Nat} {thread : Thread} {drawn : Uuid}
  {response : HttpResponse} {request : CreateQueueRequest}

/-- What a request has asked and been answered, when it has created a queue or found its name
    taken. -/
theorem Task.Ends.created {past : Exchanged} {recorded : List Measurement}
    (h : (Task.request (.createQueue (.ok request)) drawn).Ends past
      (.response response, recorded))
    (hstatus : response.status.isSuccess ∨ response.status = .conflict) :
    ∃ queue, Queue.new drawn request.name request.visibilityTimeoutSeconds
        request.maxDeliveryAttempts request.defaultMessageTtlSeconds = .ok queue ∧
      ((past = [⟨.run (.createQueue queue), .ok .created⟩] ∧
          response = .json .created (.queue (.ofDetails queue.details))) ∨
        past = [⟨.run (.createQueue queue), .ok .alreadyExists⟩] ∧ response.status = .conflict) := by
  generalize htask : Task.request (.createQueue (.ok request)) drawn = task at h
  generalize hended : (Outcome.response response, recorded) = ended at h
  cases h with
  | @refused api drawn e h =>
    simp only [Task.request.injEq] at htask
    obtain ⟨rfl, rfl⟩ := htask
    cases h
  | createQueue h =>
    simp only [Task.request.injEq, Request.createQueue.injEq, Except.ok.injEq] at htask
    obtain ⟨rfl, rfl⟩ := htask
    rcases answer_eq_response (Prod.mk.inj hended).1 with ⟨details, rfl, rfl⟩ | ⟨e, rfl, rfl⟩
    · cases h with
      | created hnew => exact ⟨_, hnew, Or.inl ⟨rfl, rfl⟩⟩
    · cases h with
      | @invalid e hnew =>
        rcases e with error | error
        · rcases hstatus with hstatus | hstatus <;> cases hstatus
        · cases error <;> rcases hstatus with hstatus | hstatus <;> cases hstatus
      | failed => rcases hstatus with hstatus | hstatus <;> cases hstatus
      | alreadyExists hnew => exact ⟨_, hnew, Or.inr ⟨rfl, rfl⟩⟩
  | _ => simp at htask

/-- The event of a request to create a queue that was answered with success. -/
theorem Service.Inv.createdQueue (h : s.Inv order) (hthread : s.threads id = some thread)
    (hresponded : thread.responded? = some (.createQueue (.ok request), drawn, response))
    (hstatus : response.status.isSuccess) :
    ∃ queue tid e, Queue.new drawn request.name request.visibilityTimeoutSeconds
        request.maxDeliveryAttempts request.defaultMessageTtlSeconds = .ok queue ∧
      response = .json .created (.queue (.ofDetails queue.details)) ∧
      thread.sent = some tid ∧ (tid, e) ∈ s.commits ∧ e.op = .createQueue queue ∧
      e.response = .createQueue .created := by
  obtain ⟨recorded, hends⟩ := h.ends hthread hresponded
  obtain ⟨queue, hnew, ⟨hpast, hresponse⟩ | ⟨-, hconflict⟩⟩ := hends.created (Or.inl hstatus)
  · obtain ⟨tid, e, hsent, hc, hop, hresult⟩ := h.ran hthread (hpast ▸ List.mem_cons_self)
    exact ⟨queue, tid, e, hnew, hresponse, hsent, hc, hop, hresult⟩
  · rw [hconflict] at hstatus
    cases hstatus

/-- **A queue's name belongs to one request.**  In every interleaving of requests, cleaners and
    failures: when a request to create a queue is answered with success, the queue is in the table,
    from then on, with the identifier and under the name that the response shows, and the response
    shows the settings that were asked for or the defaults; no other request, then or later, is
    answered with success for this name.  When it is answered with a conflict, the name has been
    taken, and stays so. -/
theorem queue_names_are_taken_once (h : s.Reachable order) (hthread : s.threads id = some thread)
    (hresponded : thread.responded? = some (.createQueue (.ok request), drawn, response)) :
    (response.status.isSuccess →
      response = .json .created (.queue ⟨drawn, request.name,
        request.visibilityTimeoutSeconds.getD defaultVisibilityTimeoutSeconds,
        request.maxDeliveryAttempts.getD defaultMaxDeliveryAttempts,
        request.defaultMessageTtlSeconds.getD defaultMessageTtlSeconds⟩) ∧
      ∀ s', Execution (Service.step order) anyAction s s' →
        (∃ q ∈ s'.system.db.queue, q.id = drawn ∧ q.name = request.name) ∧
        ∀ id' thread' request' drawn' response', s'.threads id' = some thread' →
          id' ≠ id ∨ thread'.sent ≠ thread.sent →
          thread'.responded? = some (.createQueue (.ok request'), drawn', response') →
          response'.status.isSuccess → request'.name ≠ request.name) ∧
    (response.status = .conflict → ∀ s', Execution (Service.step order) anyAction s s' →
      ∃ q ∈ s'.system.db.queue, q.name = request.name) := by
  have hinv := h.inv
  constructor
  · intro hstatus
    obtain ⟨queue, tid, e, hnew, hresponse, hsent, hc, hop, hresult⟩ :=
      hinv.createdQueue hthread hresponded hstatus
    have hlog : e ∈ s.system.log := hinv.log ▸ List.mem_map_of_mem hc
    obtain ⟨hid, -, hsettings⟩ := Queue.new_eq_ok.mp hnew
    obtain ⟨hvisibility, hattempts, httl⟩ := QueueSettings.new_eq_ok.mp hsettings
    have hname := QueueName.parse_asStr (Queue.new_eq_ok.mp hnew).2.1
    refine ⟨?_, fun s' hrun => ?_⟩
    · rw [hresponse, ← hid, ← hname, ← hvisibility, ← hattempts, ← httl]
      rfl
    · have hinv' := Service.Reachable.inv (h.trans hrun)
      have hsince := Service.since_of_execution h hrun
      have hlater := (log_kept (Service.system_of_execution hrun)).subset hlog
      have hcall := Reachable.creates hinv'.reachable e hlater queue hop
      obtain ⟨-, q, hq, hqid, hqname⟩ :=
        createQueue_names.2 ((congrArg Prod.snd hcall).trans hresult)
      rw [hcall] at hq
      obtain ⟨q', hq', hqid', hqname'⟩ := (Trace.of_log hinv'.reachable).names hlater q hq
      refine ⟨⟨q', hq', hqid'.trans (hqid.trans hid), hqname'.trans (hqname.trans hname)⟩, ?_⟩
      intro id' thread' request' drawn' response' hthread' hother hresponded' hstatus' hsame
      obtain ⟨queue', tid', e', hnew', -, hsent', hc', hop', hresult'⟩ :=
        hinv'.createdQueue hthread' hresponded' hstatus'
      have htids : tid ≠ tid' := by
        rintro rfl
        rcases hother with hother | hother
        · -- the transaction was sent by one thread
          rcases hsince.sent id' thread' tid hthread' hsent' with hidle | ⟨old, hold, holdSent⟩
          · obtain ⟨t, ht, -⟩ := hinv.committed _ hc
            rw [hidle] at ht
            simp at ht
          · exact hother (hinv.distinct id' id old thread tid hold hthread holdSent hsent)
        · exact hother (hsent'.trans hsent.symm)
      have hone : e.Creates request.name := ⟨queue, hop, hresult, hname⟩
      have hanother : e'.Creates request.name :=
        ⟨queue', hop', hresult', (QueueName.parse_asStr (Queue.new_eq_ok.mp hnew').2.1).trans hsame⟩
      rcases hinv'.pairwise (names_taken_once hinv'.reachable) (hsince.kept.subset hc) hc' htids
        with hdiffer | hdiffer
      · exact hdiffer _ hone hanother
      · exact hdiffer _ hanother hone
  · intro hconflict s' hrun
    have hinv' := Service.Reachable.inv (h.trans hrun)
    obtain ⟨recorded, hends⟩ := hinv.ends hthread hresponded
    obtain ⟨queue, hnew, ⟨-, rfl⟩ | ⟨hpast, -⟩⟩ := hends.created (Or.inr hconflict)
    · cases hconflict
    · obtain ⟨tid, e, -, hc, hop, hresult⟩ := hinv.ran hthread (hpast ▸ List.mem_cons_self)
      have hlog : e ∈ s.system.log := hinv.log ▸ List.mem_map_of_mem hc
      have hlater := (log_kept (Service.system_of_execution hrun)).subset hlog
      have htrace := Trace.of_log hinv'.reachable
      have hcall := Reachable.creates hinv'.reachable e hlater queue hop
      obtain ⟨q, hq, hqname⟩ := createQueue_names.1 ((congrArg Prod.snd hcall).trans hresult)
      have hsound := htrace.sound hlater
      obtain ⟨queues, -, heffect⟩ := hsound.effect
      obtain ⟨q', hq', -, hqname'⟩ := heffect.queue_kept hsound.before q hq
      obtain ⟨q'', hq'', -, hqname''⟩ := htrace.names hlater q' hq'
      have hname := QueueName.parse_asStr (Queue.new_eq_ok.mp hnew).2.1
      exact ⟨q'', hq'', hqname''.trans (hqname'.trans (hqname.trans hname))⟩

/-- The first request of `twoCreates` has the name, and the second is told so; it stays so when both
    are gone. -/
theorem queue_names_are_taken_once_twoCreates : ∃ s s' : Service,
    (s.threads 1).isSome ∧ (s.threads 2).isSome ∧
    Execution (Service.step .deleteFirst) anyAction s s' ∧
    (s'.threads 1).isNone ∧ (s'.threads 2).isNone ∧
    (∃ q ∈ s'.system.db.queue, q.id = 1 ∧ q.name = "orders") ∧
    ∃ q ∈ s'.system.db.queue, q.name = "orders" := by
  have hrun : ∀ ran ∈ ([(1, 1, .json .created (.queue ⟨1, "orders", 30, 5, 604800⟩)),
        (2, 2, (mapCreateQueueError .alreadyExists).errorResponse)] :
          List (Nat × Uuid × HttpResponse)),
      (runAllowed (Service.step .deleteFirst) anyAction Service.initial twoCreates).map
        (fun s => (s.threads ran.1).map (·.responded?)) =
          some (some (some (.createQueue (.ok ⟨"orders", none, none, none⟩), ran.2.1,
            ran.2.2))) := by
    decide +kernel
  have hlater : (runAllowed (Service.step .deleteFirst) anyAction Service.initial
      (twoCreates ++ [.drop 1, .drop 2])).map
        (fun s => ((s.threads 1).isNone, (s.threads 2).isNone)) = some (true, true) := by
    decide +kernel
  obtain ⟨s, hs, hfirst⟩ := Option.map_eq_some_iff.mp (hrun _ List.mem_cons_self)
  have hsecond := hrun _ (List.mem_cons_of_mem _ List.mem_cons_self)
  rw [hs, Option.map_some, Option.some.injEq] at hsecond
  obtain ⟨thread, hthread, hresponded⟩ := Option.map_eq_some_iff.mp hfirst
  obtain ⟨thread', hthread', hresponded'⟩ := Option.map_eq_some_iff.mp hsecond
  obtain ⟨s', hs', hseen⟩ := Option.map_eq_some_iff.mp hlater
  obtain ⟨hgone, hgone'⟩ := Prod.mk.inj hseen
  have hreachable := execution_of_runAllowed hs
  have hrest := execution_of_runAllowed (runAllowed_rest hs hs')
  have hfirst := (queue_names_are_taken_once hreachable hthread hresponded).1 rfl
  have hsecond := (queue_names_are_taken_once hreachable hthread' hresponded').2 rfl
  exact ⟨s, s', by rw [hthread]; rfl, by rw [hthread']; rfl, hrest, hgone, hgone',
    (hfirst.2 s' hrest).1, hsecond s' hrest⟩

end Retsu
