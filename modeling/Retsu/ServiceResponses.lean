/-
  What the clients of the API may conclude from its responses.

  A response is one of three kinds (`Task.Ends.kind`).  A success means that the transaction that
  the request has sent was committed and did what was asked; a client error means that nothing was
  changed; a server error means that it is not known, and says nothing else.  Two requests never
  share a transaction, so what one client has been told about, no other client has caused.
-/
import Retsu.LeaseExclusivity
import Retsu.RoundTrip
import Retsu.ServiceMetrics

namespace Retsu

open Relational Concurrency UseCases Program Api

/-! ## The kinds of responses -/

namespace Api.StatusCode

def isSuccess (status : StatusCode) : Bool := 200 ≤ status.asU16 ∧ status.asU16 < 300

def isClientError (status : StatusCode) : Bool := 400 ≤ status.asU16 ∧ status.asU16 < 500

def isServerError (status : StatusCode) : Bool := 500 ≤ status.asU16 ∧ status.asU16 < 600

theorem disjoint (status : StatusCode) :
    (status.isSuccess → ¬status.isClientError ∧ ¬status.isServerError) ∧
      (status.isClientError → ¬status.isServerError) := by
  cases status <;> decide

end Api.StatusCode

/-- An operation says with this result that it could not do what it was asked to do. -/
def Operation.Refuses : (op : Operation) → op.Result → Prop
  | createQueue _, outcome => outcome = .alreadyExists
  | updateQueue _ _, details => details = none
  | dequeueMessage _ _, outcome => outcome = .queueNotFound
  | enqueueMessage _ _ _, _ | acknowledgeMessage _ _ _, _ | processExpiredMessages _, _
  | purgeDeadLetterMessages _ _, _ => False

/-- A response with the answers that it came from. -/
inductive ResponseKind (past : Exchanged) : HttpResponse → Prop
  | success {response : HttpResponse} {op : Operation} {result : op.Result}
      (hstatus : response.status.isSuccess) (hran : ⟨.run op, .ok result⟩ ∈ past)
      (hdone : ¬op.Refuses result) : ResponseKind past response
  | clientError {error : ApiError} (hstatus : error.status.isClientError)
      (hrefused : ∀ op answer, ⟨.run op, answer⟩ ∈ past →
        ∃ result, answer = .ok result ∧ op.Refuses result) :
      ResponseKind past error.errorResponse
  | serverError {source : ErrorSource} : ResponseKind past (ApiError.internal source).errorResponse

/-- The answer to a request is the response to its result, or to its error. -/
theorem answer_eq_response {ε α β : Type} {mapError : ε → ApiError} {finish : α → β}
    {respond : β → HttpResponse} {result : Except ε α} {response : HttpResponse}
    (h : Outcome.response response = Task.answer mapError finish respond result) :
    (∃ a, result = .ok a ∧ response = respond (finish a)) ∨
      ∃ e, result = .error e ∧ response = (mapError e).errorResponse := by
  have h := Outcome.response.inj h
  cases result with
  | ok a => exact Or.inl ⟨a, rfl, h⟩
  | error e => exact Or.inr ⟨e, rfl, h⟩

/-- An extractor's error is the client's fault, or internal. -/
theorem Api.Request.handler_error {api : Api.Request} {drawn : Uuid} {e : ApiError}
    (h : api.handler drawn = .error e) :
    e.status.isClientError ∨ ∃ source, e = .internal source := by
  have hbody : ∀ error, (jsonError error).status.isClientError ∨
      ∃ source, jsonError error = .internal source := by
    intro error
    cases error with
    | serialize text => exact Or.inr ⟨_, rfl⟩
    | other text => exact Or.inr ⟨_, rfl⟩
    | _ => exact Or.inl rfl
  cases api with
  | createQueue body =>
    rcases body with error | body
    · obtain rfl := Except.error.inj h
      exact hbody error
    · cases h
  | dequeueMessage path =>
    rcases path with error | path
    · obtain rfl := Except.error.inj h
      exact Or.inl rfl
    · cases h
  | updateQueue path body | enqueueMessage path body | acknowledgeMessage path body =>
    rcases path with error | path
    · obtain rfl := Except.error.inj h
      exact Or.inl rfl
    rcases body with error | body
    · obtain rfl := Except.error.inj h
      exact hbody error
    · cases h
  | unknown =>
    obtain rfl := Except.error.inj h
    exact Or.inl rfl

/-- **Every response is of one of the three kinds.** -/
theorem Task.Ends.kind {api : Api.Request} {drawn : Uuid} {past : Exchanged}
    {response : HttpResponse} {recorded : List Measurement}
    (h : (Task.request api drawn).Ends past (.response response, recorded)) :
    ResponseKind past response := by
  generalize htask : Task.request api drawn = task at h
  generalize hended : (Outcome.response response, recorded) = ended at h
  cases h with
  | refused h =>
    obtain rfl := Outcome.response.inj (Prod.mk.inj hended).1
    rcases Request.handler_error h with hstatus | ⟨source, rfl⟩
    · exact .clientError hstatus (by simp)
    · exact .serverError
  | createQueue h =>
    rcases answer_eq_response (Prod.mk.inj hended).1 with ⟨details, rfl, rfl⟩ | ⟨e, rfl, rfl⟩
    · cases h with
      | created hnew => exact .success rfl List.mem_cons_self (by simp [Operation.Refuses])
    · cases h with
      | @invalid e hnew =>
        cases e with
        | invalidName error => exact .clientError rfl (by simp)
        | invalidSettings error => cases error <;> exact .clientError rfl (by simp)
      | failed => exact .serverError
      | alreadyExists hnew =>
        refine .clientError rfl fun op answer hmem => ?_
        cases List.mem_singleton.mp hmem
        exact ⟨_, rfl, rfl⟩
  | updateQueue h =>
    rcases answer_eq_response (Prod.mk.inj hended).1 with ⟨details, rfl, rfl⟩ | ⟨e, rfl, rfl⟩
    · cases h with
      | updated hnew => exact .success rfl List.mem_cons_self (by simp [Operation.Refuses])
    · cases h with
      | noChanges => exact .clientError rfl (by simp)
      | @invalid e hnew => cases e <;> exact .clientError rfl (by simp)
      | failed => exact .serverError
      | notFound =>
        refine .clientError rfl fun op answer hmem => ?_
        cases List.mem_singleton.mp hmem
        exact ⟨_, rfl, rfl⟩
  | enqueueMessage h =>
    rcases answer_eq_response (Prod.mk.inj hended).1 with ⟨message, rfl, rfl⟩ | ⟨e, rfl, rfl⟩
    · cases h with
      | enqueued hnew =>
        exact .success rfl (List.mem_cons_of_mem _ List.mem_cons_self) (by simp [Operation.Refuses])
    · cases h with
      | @invalid e hnew => cases e <;> exact .clientError rfl (by simp)
      | unavailable => exact .serverError
      | notFound => exact .clientError rfl (by simp)
      | failed => exact .serverError
  | dequeueMessage h =>
    rcases answer_eq_response (Prod.mk.inj hended).1 with ⟨result, rfl, rfl⟩ | ⟨e, rfl, rfl⟩
    · cases h with
      | empty => exact .success rfl List.mem_cons_self (by simp [Operation.Refuses])
      | dequeued => exact .success rfl List.mem_cons_self (by simp [Operation.Refuses])
    · cases h with
      | failed => exact .serverError
      | notFound =>
        refine .clientError rfl fun op answer hmem => ?_
        cases List.mem_singleton.mp hmem
        exact ⟨_, rfl, rfl⟩
  | acknowledgeMessage h =>
    rcases answer_eq_response (Prod.mk.inj hended).1 with ⟨message, rfl, rfl⟩ | ⟨e, rfl, rfl⟩
    · cases h with
      | acknowledged | unchanged =>
        exact .success rfl (List.mem_cons_of_mem _ List.mem_cons_self) (by simp [Operation.Refuses])
    · cases h with
      | unavailable => exact .serverError
      | notFound => exact .clientError rfl (by simp)
      | failed => exact .serverError
  | processExpiredMessages | purgeDeadLetterMessages => simp at htask

/-! ## Requests and their transactions -/

/-- The request that the thread has answered, and its response. -/
def Thread.responded? (thread : Thread) : Option (Api.Request × Uuid × HttpResponse) :=
  match thread.task, thread.program with
  | .request api drawn, .done (.response response, _) => some (api, drawn, response)
  | _, _ => none

theorem Thread.responded?_eq_some {thread : Thread} {api : Api.Request} {drawn : Uuid}
    {response : HttpResponse} : thread.responded? = some (api, drawn, response) ↔
      thread.task = .request api drawn ∧
        ∃ recorded, thread.program = .done (.response response, recorded) := by
  unfold Thread.responded?
  constructor
  · intro h
    split at h
    · rename_i htask hprogram
      simp only [Option.some.injEq, Prod.mk.injEq] at h
      obtain ⟨rfl, rfl, rfl⟩ := h
      exact ⟨htask, _, hprogram⟩
    · simp at h
  · rintro ⟨htask, recorded, hprogram⟩
    rw [htask, hprogram]

variable {order : TriggerOrder} {s : Service} {id : Nat} {thread : Thread} {api : Api.Request}
  {drawn : Uuid} {response : HttpResponse}

theorem Service.Inv.ends (h : s.Inv order) (hthread : s.threads id = some thread)
    (hresponded : thread.responded? = some (api, drawn, response)) :
    ∃ recorded, (Task.request api drawn).Ends thread.answered (.response response, recorded) := by
  obtain ⟨htask, recorded, hdone⟩ := Thread.responded?_eq_some.mp hresponded
  have hends := (h.goes id thread hthread).conforms thread.task.conforms
  rw [hdone, htask] at hends
  exact ⟨recorded, hends⟩

/-- What has been run has been committed, by the transaction that the thread has sent. -/
theorem Service.Inv.ran (h : s.Inv order) (hthread : s.threads id = some thread) {op : Operation}
    {result : op.Result} (hran : ⟨.run op, .ok result⟩ ∈ thread.answered) :
    ∃ tid e, thread.sent = some tid ∧ (tid, e) ∈ s.commits ∧ e.op = op ∧
      e.response = op.respond result := by
  obtain ⟨c, hc, hsent, -, hop, hresponse⟩ := h.witnessed id thread hthread _ hran
  exact ⟨c.1, c.2, hsent, hc, hop, hresponse⟩

/-- An operation that refuses changes nothing. -/
theorem Event.Sound.refused {e : Event} (h : e.Sound) {op : Operation} {result : op.Result}
    (hop : e.op = op) (hresponse : e.response = op.respond result) (hrefuses : op.Refuses result) :
    e.after = e.before := by
  obtain ⟨queues, -, heffect⟩ := h.effect
  rw [hop, hresponse] at heffect
  generalize e.after = after at heffect ⊢
  cases op with
  | createQueue queue =>
    obtain rfl : result = .alreadyExists := hrefuses
    cases heffect
    rfl
  | updateQueue queueId configuration =>
    obtain rfl : result = none := hrefuses
    cases heffect
    rfl
  | dequeueMessage queueId receiptHandle =>
    obtain rfl : result = .queueNotFound := hrefuses
    generalize hnone : DequeueMessageOutcome.queueNotFound = outcome at heffect
    cases heffect with
    | queueNotFound => rfl
    | dequeued _ _ _ _ _ _ _ _ houtcome => subst hnone; cases houtcome
  | _ => exact absurd hrefuses (by simp [Operation.Refuses])

/-- What a response tells its client. -/
structure Service.Tells (s : Service) (thread : Thread) (response : HttpResponse) : Prop where
  /-- There are no other kinds of responses. -/
  kind : response.status.isSuccess ∨ response.status.isClientError ∨ response.status.isServerError
  /-- A success: the transaction has been committed, and has not refused. -/
  success : response.status.isSuccess → ∃ tid e op, ∃ result : op.Result,
    thread.sent = some tid ∧ (tid, e) ∈ s.commits ∧ e.op = op ∧ e.response = op.respond result ∧
      ¬op.Refuses result
  /-- A client error: if there was a transaction, it has changed nothing. -/
  clientError : response.status.isClientError → ∀ tid, thread.sent = some tid →
    ∃ e, (tid, e) ∈ s.commits ∧ e.after = e.before
  /-- A server error says nothing of what has happened. -/
  serverError : response.status.isServerError → response =
    ⟨.internalServerError, [("content-type", "application/problem+json"),
      ("cache-control", "no-store")], .problem ⟨"about:blank", "Internal Server Error", 500,
        "an unexpected error occurred", "internal_error"⟩⟩

/-- **What clients may conclude from a status.**  In every interleaving of requests, cleaners and
    failures: a response is a success, and its transaction has been committed and has done something
    or found nothing to do; or a client error, and its transaction, if it had one, has changed
    nothing; or a server error, always the same text.  No two requests have a transaction in
    common. -/
theorem responses_tell (h : s.Reachable order) (hthread : s.threads id = some thread)
    (hresponded : thread.responded? = some (api, drawn, response)) :
    s.Tells thread response ∧
    ∀ id' thread', s.threads id' = some thread' → id' ≠ id →
      ∀ tid, thread.sent = some tid → thread'.sent ≠ some tid := by
  have hinv := h.inv
  obtain ⟨recorded, hends⟩ := hinv.ends hthread hresponded
  refine ⟨?_, fun id' thread' hthread' hne tid hsent hsent' =>
    hne (hinv.distinct id' id thread' thread tid hthread' hthread hsent' hsent)⟩
  cases hends.kind with
  | success hstatus hran hdone =>
    obtain ⟨hclient, hserver⟩ := response.status.disjoint.1 hstatus
    obtain ⟨tid, e, hsent, hc, hop, hresult⟩ := hinv.ran hthread hran
    exact ⟨Or.inl hstatus, fun _ => ⟨tid, e, _, _, hsent, hc, hop, hresult, hdone⟩,
      fun h => absurd h hclient, fun h => absurd h hserver⟩
  | @clientError error hstatus hrefused =>
    have hserver := error.status.disjoint.2 hstatus
    refine ⟨Or.inr (Or.inl hstatus), fun h => absurd hstatus (error.status.disjoint.1 h).1,
      fun _ tid hsent => ?_, fun h => absurd h hserver⟩
    obtain ⟨t, ht, hwas⟩ := hinv.sent id thread tid hthread hsent
    cases hwas with
    | waits hnew hprogram =>
      obtain ⟨-, _, hdone⟩ := Thread.responded?_eq_some.mp hresponded
      simp [hdone] at hprogram
    | @answered answer hmem =>
      obtain ⟨result, rfl, hrefuses⟩ := hrefused t.op answer hmem
      obtain ⟨tid', e, hsent', hc, hop, hresult⟩ := hinv.ran hthread hmem
      obtain rfl := Option.some.inj (hsent.symm.trans hsent')
      have hlog : e ∈ s.system.log := hinv.log ▸ List.mem_map_of_mem hc
      exact ⟨e, hc, ((Trace.of_log hinv.reachable).sound hlog).refused hop hresult hrefuses⟩
  | serverError =>
    refine ⟨Or.inr (Or.inr rfl), fun h => ?_, fun h => ?_, fun _ => rfl⟩
    · exact absurd h Bool.false_ne_true
    · exact absurd h Bool.false_ne_true

/-- Two clients create a queue under one name; the second is told that it exists. -/
def twoCreates : List ServiceAction :=
  [.spawn 1 (.request (.createQueue (.ok ⟨"orders", none, none, none⟩)) 1)] ++
    committed 1 1 [] 0 ++ [.reply 1] ++
    [.spawn 2 (.request (.createQueue (.ok ⟨"orders", none, none, none⟩)) 2)] ++
    committed 2 2 [] 0 ++ [.reply 2]

/-- The second request was refused, and its transaction has changed nothing. -/
theorem responses_tell_twoCreates : ∃ (s : Service) (thread : Thread) (response : HttpResponse),
    s.threads 2 = some thread ∧ thread.sent = some 2 ∧ response.status = .conflict ∧
    s.Tells thread response := by
  have hrun : (runAllowed (Service.step .deleteFirst) anyAction Service.initial twoCreates).map
      (fun s => (s.threads 2).map fun thread => (thread.sent, thread.responded?)) =
        some (some (some 2, some (.createQueue (.ok ⟨"orders", none, none, none⟩), 2,
          (mapCreateQueueError .alreadyExists).errorResponse))) := by
    decide +kernel
  obtain ⟨s, hs, hseen⟩ := Option.map_eq_some_iff.mp hrun
  obtain ⟨thread, hthread, hanswer⟩ := Option.map_eq_some_iff.mp hseen
  obtain ⟨hsent, hresponded⟩ := Prod.mk.inj hanswer
  exact ⟨s, thread, _, hthread, hsent, rfl,
    (responses_tell (execution_of_runAllowed hs) hthread hresponded).1⟩

/-! ## Enqueues -/

/-- What a request has asked and been answered, when a message of it has been accepted. -/
theorem Task.Ends.enqueued {path : Except PathError QueuePath}
    {body : Except JsonPayloadError EnqueueMessageRequest} {past : Exchanged}
    {recorded : List Measurement}
    (h : (Task.request (.enqueueMessage path body) drawn).Ends past (.response response, recorded))
    (hstatus : response.status.isSuccess) :
    ∃ queuePath request message queue, path = .ok queuePath ∧ body = .ok request ∧
      Message.new drawn request.payload request.priority request.ttlSeconds = .ok message ∧
      past = [⟨.queueDetails queuePath.queueId, .ok (some queue)⟩,
        ⟨.run (.enqueueMessage queuePath.queueId message
          (message.ttlSeconds.getD queue.defaultMessageTtlSeconds)), .ok ()⟩] ∧
      response = .json .created (.enqueued ⟨message.id⟩) := by
  generalize htask : Task.request (.enqueueMessage path body) drawn = task at h
  generalize hended : (Outcome.response response, recorded) = ended at h
  have hclient := (response.status.disjoint.1 hstatus).1
  have hserver := (response.status.disjoint.1 hstatus).2
  cases h with
  | refused h =>
    obtain rfl := Outcome.response.inj (Prod.mk.inj hended).1
    rcases Request.handler_error h with herror | ⟨source, rfl⟩
    · exact absurd herror hclient
    · exact absurd rfl hserver
  | @enqueueMessage queuePath request _ _ _ h =>
    simp only [Task.request.injEq, Request.enqueueMessage.injEq] at htask
    obtain ⟨⟨rfl, rfl⟩, rfl⟩ := htask
    rcases answer_eq_response (Prod.mk.inj hended).1 with ⟨message, rfl, rfl⟩ | ⟨e, rfl, rfl⟩
    · cases h with
      | enqueued hnew => exact ⟨_, _, _, _, rfl, rfl, hnew, rfl, rfl⟩
    · cases h with
      | @invalid e hnew => cases e <;> exact absurd rfl hclient
      | unavailable => exact absurd rfl hserver
      | notFound => exact absurd rfl hclient
      | failed => exact absurd rfl hserver
  | _ => simp at htask

/-- An enqueue moves the row that it stores. -/
theorem Event.Sound.moves_enqueued {e : Event} (h : e.Sound) {queueId : Uuid} {message : Message}
    {ttl : UInt32} (hop : e.op = .enqueueMessage queueId message ttl)
    (hresponse : e.response = .enqueueMessage) :
    ∃ enqueueOrder, e.moves =
      [(message.row queueId ttl enqueueOrder e.now).move .messagesEnqueued] := by
  obtain ⟨before, now, op, response, after⟩ := e
  obtain ⟨queues, -, heffect⟩ := h.effect
  obtain rfl : op = _ := hop
  obtain rfl : response = _ := hresponse
  dsimp only at heffect
  cases heffect with
  | @enqueued _ _ _ enqueueOrder seq shards hqueue hid hchecked hseq =>
    have hadded : removedRows (·.id)
        (before.queueMessage ++ [message.row queueId ttl enqueueOrder now]) before.queueMessage =
          [message.row queueId ttl enqueueOrder now] :=
      removedRows_append fun m hm m' hm' => by
        rw [List.mem_singleton.mp hm']
        exact hid m hm
    refine ⟨enqueueOrder, ?_⟩
    show (removedRows (·.id) (before.queueMessage ++ [message.row queueId ttl enqueueOrder now])
      before.queueMessage).map _ = _
    rw [hadded, List.map_singleton]

/-- A message is counted as enqueued by the event that has brought its id. -/
theorem Event.Sound.enqueuedId_of_move {e : Event} (h : e.Sound) {move : Move}
    (hmove : move ∈ e.moves) (hinstrument : move.instrument = .messagesEnqueued) :
    e.op.enqueuedId = some move.header.id := by
  obtain ⟨queues, -, heffect⟩ := h.effect
  unfold Event.moves at hmove
  split at hmove
  · simp at hmove
  · obtain ⟨m, hm, rfl⟩ := List.mem_map.mp hmove
    obtain ⟨hm, hnew⟩ := mem_removedRows.mp hm
    rcases heffect.message_id h.before hm with hid | ⟨m', hm', hid⟩
    · exact hid
    · exact absurd hid (hnew m' hm')
  · obtain ⟨d, hd, rfl⟩ := List.mem_map.mp hmove
    cases hinstrument
  · rename_i hnone _ hop
    obtain ⟨m, hm, rfl⟩ := List.mem_map.mp hmove
    obtain rfl : _ = Instrument.messagesEnqueued := hinstrument
    exact absurd rfl hnone

theorem moved_enqueued_eq_zero {events : List Event} {id : Uuid} {p : Header → Bool}
    (hp : ∀ header, p header → header.id = id) (hsound : ∀ e ∈ events, e.Sound)
    (hother : ∀ e ∈ events, e.op.enqueuedId ≠ some id) : moved events .messagesEnqueued p = 0 := by
  rw [moved, List.countP_eq_zero]
  intro move hmove hcounted
  obtain ⟨e, he, hmove⟩ := List.mem_flatMap.mp hmove
  simp only [Bool.and_eq_true, decide_eq_true_eq] at hcounted
  obtain ⟨hinstrument, hheader⟩ := hcounted
  exact hother e he (hp _ hheader ▸ (hsound e he).enqueuedId_of_move hmove hinstrument)

/-- **A message is enqueued once, and is in one place ever after.** -/
theorem Trace.enqueued_once {events : List Event} {db : Database} (trace : Trace events db)
    {e : Event} (he : e ∈ events) {queueId : Uuid} {message : Message} {ttl : UInt32}
    (hop : e.op = .enqueueMessage queueId message ttl) (hresponse : e.response = .enqueueMessage) :
    ∃ enqueueOrder, ∀ p : Header → Bool, p (message.row queueId ttl enqueueOrder e.now).header →
      (∀ header, p header → header.id = message.id) → moved events .messagesEnqueued p = 1 := by
  obtain ⟨past, future, rfl⟩ := List.append_of_mem he
  have hsound : ∀ e' ∈ past ++ e :: future, e'.Sound := fun e' he' => trace.sound he'
  obtain ⟨enqueueOrder, hmoves⟩ := (hsound e he).moves_enqueued hop hresponse
  have hid : e.op.enqueuedId = some message.id := by
    rw [hop]
    rfl
  obtain ⟨-, -, hpast, -⟩ := trace.split
  have hfuture : ∀ e' ∈ future, e'.op.enqueuedId ≠ some message.id := by
    intro e' he' hid'
    obtain ⟨between, rest, rfl⟩ := List.append_of_mem he'
    have htrace : Trace ((past ++ e :: between) ++ e' :: rest) db := by
      simpa only [List.append_assoc, List.cons_append] using trace
    obtain ⟨-, -, hfresh, -⟩ := htrace.split
    exact hfresh message.id hid' e (by simp) hid
  refine ⟨enqueueOrder, fun p hrow hp => ?_⟩
  have hbefore : moved past .messagesEnqueued p = 0 :=
    moved_enqueued_eq_zero hp (fun e' he' => hsound e' (by simp [he'])) (hpast message.id hid)
  have hafter : moved future .messagesEnqueued p = 0 :=
    moved_enqueued_eq_zero hp (fun e' he' => hsound e' (by simp [he'])) hfuture
  have hnow : moved [e] .messagesEnqueued p = 1 := by
    rw [moved_singleton, hmoves]
    simp [QueueMessage.move, hrow]
  rw [← List.singleton_append, moved_append, moved_append, hbefore, hnow, hafter]

/-- The message has been enqueued once, and it has left in one of three ways or is in one place. -/
structure Service.Keeps (s : Service) (header : Header) : Prop where
  once : moved s.system.log .messagesEnqueued (fun other => other = header) = 1
  somewhere : moved s.system.log .messagesAcknowledged (fun other => other = header) +
    moved s.system.log .messagesExpired (fun other => other = header) +
    moved s.system.log .messagesPurged (fun other => other = header) +
    s.system.db.queueMessage.countP (fun m => m.header = header) +
    s.system.db.queueDeadLetterMessage.countP (fun d => d.header = header) = 1

/-- A message that has been enqueued is kept. -/
theorem Service.Inv.keeps (h : s.Inv order) {e : Event} (he : e ∈ s.system.log) {queueId : Uuid}
    {message : Message} {ttl : UInt32} (hop : e.op = .enqueueMessage queueId message ttl)
    (hresponse : e.response = .enqueueMessage) :
    s.Keeps (message.row queueId ttl 0 e.now).header := by
  have htrace := Trace.of_log h.reachable
  obtain ⟨enqueueOrder, honce⟩ := htrace.enqueued_once he hop hresponse
  -- the place in the queue is not in the header
  have hheader : (message.row queueId ttl enqueueOrder e.now).header =
      (message.row queueId ttl 0 e.now).header := rfl
  generalize (message.row queueId ttl 0 e.now).header = header at hheader
  replace honce := honce (fun other => other = header) (decide_eq_true hheader) fun other heq =>
    of_decide_eq_true heq ▸ hheader ▸ rfl
  have hbalanced := htrace.balanced fun other => other = header
  have hmessages := hbalanced.messages
  have harchive := hbalanced.archive
  exact ⟨honce, by omega⟩

/-- **No accepted message is lost or doubled.**  When a request to enqueue has been answered with
    success, its message has been stored once, as it was sent, with the time to live that it asked
    for or a default that its queue has had; and in every later state, whatever else happens, it is
    in exactly one place: live, archived, acknowledged, expired or purged. -/
theorem accepted_messages_are_kept {path : QueuePath} {request : EnqueueMessageRequest}
    (h : s.Reachable order) (hthread : s.threads id = some thread)
    (hresponded : thread.responded? =
      some (.enqueueMessage (.ok path) (.ok request), drawn, response))
    (hstatus : response.status.isSuccess) :
    response = .json .created (.enqueued ⟨drawn⟩) ∧
    ∃ header : Header, ∃ ttl : UInt32,
      header.id = drawn ∧ header.queueId = path.queueId ∧
      header.payload = request.payload.toByteArray ∧
      priorityLabel header.priority = request.priority ∧
      header.expiresAt = header.enqueuedAt + seconds ttl.toNat ∧
      (∀ asked, request.ttlSeconds = some asked → ttl = asked) ∧
      (request.ttlSeconds = none → ∃ db ∈ s.past, ∃ queue,
        queueDetails db path.queueId = .ok (some queue) ∧ ttl = queue.defaultMessageTtlSeconds) ∧
      ∀ s', Execution (Service.step order) anyAction s s' → s'.Keeps header := by
  have hinv := h.inv
  obtain ⟨recorded, hends⟩ := hinv.ends hthread hresponded
  obtain ⟨path', request', message, queue, hpath, hrequest, hnew, hpast, rfl⟩ := hends.enqueued hstatus
  obtain rfl := Except.ok.inj hpath
  obtain rfl := Except.ok.inj hrequest
  obtain ⟨rfl, hpayload, hpriority, httl⟩ := Message.new_eq_ok hnew
  obtain ⟨tid, e, -, hc, hop, hresponse⟩ := hinv.ran hthread
    (hpast ▸ List.mem_cons_of_mem _ List.mem_cons_self)
  have he : e ∈ s.system.log := hinv.log ▸ List.mem_map_of_mem hc
  obtain ⟨db, hdb, hdetails⟩ := hinv.witnessed id thread hthread
    ⟨.queueDetails path.queueId, .ok (some queue)⟩ (hpast ▸ List.mem_cons_self)
  refine ⟨rfl, (message.row path.queueId (message.ttlSeconds.getD queue.defaultMessageTtlSeconds) 0
      e.now).header, message.ttlSeconds.getD queue.defaultMessageTtlSeconds, rfl, rfl,
    congrArg String.toByteArray hpayload, ?_, rfl, ?_, ?_, fun s' hrun => ?_⟩
  · exact (priorityLabel_rank _).trans hpriority.symm
  · intro asked hasked
    rw [httl, hasked]
    rfl
  · intro hnone
    rw [httl, hnone]
    exact ⟨db, hdb, queue, hdetails, rfl⟩
  · have hlater := log_kept (Service.system_of_execution hrun)
    exact (Service.Reachable.inv (h.trans hrun)).keeps (hlater.subset he) hop hresponse

/-- The first message of `lostResponse` has been accepted; it is there when its thread is gone. -/
theorem accepted_messages_are_kept_lostResponse : ∃ (s : Service) (header : Header),
    (s.threads 2).isNone ∧ s.system.db.queueMessage.length = 2 ∧ header.id = 7 ∧
    header.payload = "first".toByteArray ∧ s.Keeps header := by
  have hfirst : (runAllowed (Service.step .deleteFirst) anyAction Service.initial lostResponse).map
      (fun s => (s.threads 2).map (·.responded?)) =
        some (some (some (.enqueueMessage (.ok ⟨1⟩) (.ok ⟨"first", "HIGH", none⟩), 7,
          .json .created (.enqueued ⟨7⟩)))) := by
    decide +kernel
  have hrun : (runAllowed (Service.step .deleteFirst) anyAction Service.initial
      (lostResponse ++ [.drop 2])).map
        (fun s => ((s.threads 2).isNone, s.system.db.queueMessage.length)) = some (true, 2) := by
    decide +kernel
  obtain ⟨s₁, hs₁, hanswer⟩ := Option.map_eq_some_iff.mp hfirst
  obtain ⟨thread, hthread, hresponded⟩ := Option.map_eq_some_iff.mp hanswer
  obtain ⟨s, hs, hseen⟩ := Option.map_eq_some_iff.mp hrun
  obtain ⟨hgone, hlength⟩ := Prod.mk.inj hseen
  have hrest := runAllowed_rest hs₁ hs
  obtain ⟨-, header, -, hid, -, hpayload, -, -, -, -, hkeeps⟩ :=
    accepted_messages_are_kept (execution_of_runAllowed hs₁) hthread hresponded rfl
  exact ⟨s, header, hgone, hlength, hid, hpayload, hkeeps s (execution_of_runAllowed hrest)⟩

/-! ## Deliveries -/

/-- What a request has asked and been answered, when it has been handed a message. -/
theorem Task.Ends.dequeued {path : Except PathError QueuePath} {past : Exchanged}
    {recorded : List Measurement} {message : DequeueMessageResponse}
    (h : (Task.request (.dequeueMessage path) drawn).Ends past (.response response, recorded))
    (hbody : response.body = .dequeued message) :
    ∃ queuePath delivered queueName deadLettered, path = .ok queuePath ∧
      message = .ofMessage delivered ∧
      past = [⟨.run (.dequeueMessage queuePath.queueId drawn), .ok (.dequeued delivered.id
        delivered.payload delivered.priority delivered.receiptHandle delivered.deliveryAttempts
        queueName deadLettered)⟩] := by
  generalize htask : Task.request (.dequeueMessage path) drawn = task at h
  generalize hended : (Outcome.response response, recorded) = ended at h
  cases h with
  | refused h =>
    obtain rfl := Outcome.response.inj (Prod.mk.inj hended).1
    cases hbody
  | @dequeueMessage queuePath _ _ _ h =>
    simp only [Task.request.injEq, Request.dequeueMessage.injEq] at htask
    obtain ⟨rfl, rfl⟩ := htask
    rcases answer_eq_response (Prod.mk.inj hended).1 with ⟨result, rfl, rfl⟩ | ⟨e, rfl, rfl⟩
    · cases h with
      | empty => cases hbody
      | dequeued =>
        obtain rfl := Body.dequeued.inj hbody
        exact ⟨queuePath, _, _, _, rfl, rfl, rfl⟩
    · cases hbody
  | _ => simp at htask

/-- The client of the thread has been handed a message. -/
def Thread.Handed (thread : Thread) (path : QueuePath) (drawn : Uuid)
    (message : DequeueMessageResponse) : Prop :=
  ∃ response, thread.responded? = some (.dequeueMessage (.ok path), drawn, response) ∧
    response.body = .dequeued message

/-- The delivery behind a message that has been handed to a client. -/
structure Service.Delivery (s : Service) (thread : Thread) (path : QueuePath) (drawn : Uuid)
    (message : DequeueMessageResponse) (e : Event) (lease : QueueMessage) : Prop where
  committed : ∃ tid, thread.sent = some tid ∧ (tid, e) ∈ s.commits
  leased : e.Leased lease
  id : lease.id = message.id
  queue : lease.queueId = path.queueId
  payload : lease.payload = message.payload.toByteArray
  priority : priorityLabel lease.priority = message.priority
  handle : message.receiptHandle = drawn ∧ lease.receiptHandle = some drawn
  attempts : e.response.deliveryAttempts = some message.deliveryAttempts
  unexpired : e.now < lease.expiresAt
  /-- The message has been enqueued as it is. -/
  stored : ∃ e' ∈ s.system.log, e'.Stores lease

theorem Service.Inv.delivery (h : s.Inv order) (hthread : s.threads id = some thread)
    {path : QueuePath} {message : DequeueMessageResponse}
    (hhanded : thread.Handed path drawn message) :
    ∃ e lease, s.Delivery thread path drawn message e lease := by
  obtain ⟨response, hresponded, hbody⟩ := hhanded
  obtain ⟨recorded, hends⟩ := h.ends hthread hresponded
  obtain ⟨path', delivered, queueName, deadLettered, hpath, rfl, hpast⟩ := hends.dequeued hbody
  obtain rfl := Except.ok.inj hpath
  obtain ⟨tid, e, hsent, hc, hop, hresult⟩ := h.ran hthread (hpast ▸ List.mem_cons_self)
  have hlog : e ∈ s.system.log := h.log ▸ List.mem_map_of_mem hc
  obtain ⟨past, future, hevents⟩ := List.append_of_mem hlog
  have htrace := Trace.of_log h.reachable
  rw [hevents] at htrace
  obtain ⟨hbefore, -, -, queues, -, heffect⟩ := htrace.split
  have hdelivered : e.response.delivered = some delivered.id := by
    rw [hresult]
    rfl
  obtain ⟨queue, handle, m, payload, priority, _, hdop, -, hm, hid, hcandidate, hpayload, hpriority,
    hdelivery⟩ := heffect.delivery hdelivered
  obtain ⟨queue', handle', m', hdop', -, hchecked, hm', hid', -, -, hlease⟩ :=
    heffect.delivered hbefore.valid hdelivered
  obtain rfl := eq_of_key_eq hbefore.valid.messages.ids hm' hm (hid'.trans hid.symm)
  -- the operation and the response are those of the request
  rw [hop] at hdop hdop'
  obtain ⟨hqueue, rfl⟩ := Operation.dequeueMessage.inj hdop
  obtain ⟨-, rfl⟩ := Operation.dequeueMessage.inj hdop'
  rw [hresult] at hdelivery
  injection hdelivery with houtcome
  obtain ⟨-, hsamePayload, hsamePriority, hsameHandle, hsameAttempts, -⟩ :=
    DequeueMessageOutcome.dequeued.inj houtcome
  simp only [isCandidate, decide_eq_true_eq] at hcandidate
  obtain ⟨e', he', hstores⟩ := hbefore.provenance m' hm'
  have hvisibility := (QueueRow.checked_iff.mp hchecked).2.2.1.1
  refine ⟨e, m'.lease drawn e.now queue'.visibilityTimeoutSeconds, {
    committed := ⟨tid, hsent, hc⟩
    leased := ⟨?_, hlease, ⟨path.queueId, drawn, hop, rfl⟩, rfl, ?_⟩
    id := hid'
    queue := ?_
    payload := ?_
    priority := ?_
    handle := ⟨hsameHandle, rfl⟩
    attempts := by rw [hresult]; rfl
    unexpired := hcandidate.2.1
    stored := ⟨e', ?_, hstores.stored, hstores.enqueues⟩ }⟩
  · rw [hdelivered, ← hid']
    rfl
  · show e.now < e.now + seconds queue'.visibilityTimeoutSeconds
    unfold seconds
    omega
  · exact hcandidate.1.symm.trans hqueue.symm
  · exact hpayload.trans (congrArg String.toByteArray hsamePayload.symm)
  · show priorityLabel m'.priority = delivered.priority.asStr
    rw [hpriority, priorityLabel_rank, hsamePriority]
  · rw [hevents]
    exact List.mem_append_left _ he'

/-- Later deliveries of a message report more attempts. -/
theorem Trace.attempts_increase {events : List Event} {db : Database} (trace : Trace events db) :
    events.Pairwise fun e e' => ∀ id k k', e.response.delivered = some id →
      e'.response.delivered = some id → e.response.deliveryAttempts = some k →
      e'.response.deliveryAttempts = some k' → k < k' := by
  induction trace with
  | start => exact List.Pairwise.nil
  | draw trace hseq ih => exact ih
  | @event events last queues trace hfresh hqueues heffect hvalid ih =>
    have hwhole : Trace (events ++ [last]) last.after :=
      .event trace hfresh hqueues heffect hvalid
    refine List.pairwise_append.mpr ⟨ih, List.pairwise_singleton _ _, fun e he e' he' => ?_⟩
    obtain rfl := List.mem_singleton.mp he'
    intro id k k' hid hid' hk hk'
    obtain ⟨past, future, rfl⟩ := List.append_of_mem he
    -- the earlier delivery is one of those that the later one counts
    rw [trace.accounted.reported past e future rfl id hid] at hk
    rw [hwhole.accounted.reported _ _ [] rfl id hid'] at hk'
    obtain rfl := Option.some.inj hk
    obtain rfl := Option.some.inj hk'
    have hone : deliveries [e] id = 1 := by simp [deliveries, hid]
    have hcount : deliveries (past ++ e :: future) id =
        deliveries past id + deliveries [e] id + deliveries future id := by
      simp only [deliveries, List.countP_append, List.countP_cons, List.countP_nil]
      omega
    omega

/-- Of two transactions, one was committed before the other. -/
theorem Service.Inv.pairwise (h : s.Inv order) {R : Event → Event → Prop}
    (hlog : s.system.log.Pairwise R) {tid tid' : Nat} {e e' : Event} (hc : (tid, e) ∈ s.commits)
    (hc' : (tid', e') ∈ s.commits) (hne : tid ≠ tid') : R e e' ∨ R e' e := by
  rw [← h.log, List.pairwise_map] at hlog
  have hsymm : Std.Symm fun c c' : Nat × Event => R c.2 c'.2 ∨ R c'.2 c.2 :=
    ⟨fun _ _ => Or.symm⟩
  have heither : s.commits.Pairwise fun c c' => R c.2 c'.2 ∨ R c'.2 c.2 := hlog.imp Or.inl
  exact heither.forall hc hc' fun heq => hne (congrArg Prod.fst heq)

/-- **A client that is handed a message has it for itself.**  In every interleaving of requests,
    cleaners and failures: what a client has been handed has been enqueued as it is, to the queue
    that was asked, and was leased to this client by a transaction of its own.  A message that two
    clients have been handed had two receipt handles and two numbers of attempts, and at no time
    was it leased to both. -/
theorem deliveries_are_exclusive {path : QueuePath} {message : DequeueMessageResponse}
    (h : s.Reachable order) (hthread : s.threads id = some thread)
    (hhanded : thread.Handed path drawn message) :
    ∃ e lease, s.Delivery thread path drawn message e lease ∧
      ∀ id' thread' path' drawn' message', id' ≠ id → s.threads id' = some thread' →
        thread'.Handed path' drawn' message' → message'.id = message.id →
        message'.receiptHandle ≠ message.receiptHandle ∧
        message'.deliveryAttempts ≠ message.deliveryAttempts ∧
        ∀ e' lease', s.Delivery thread' path' drawn' message' e' lease' →
          ∀ time, ¬(lease.LeasedAt time ∧ lease'.LeasedAt time) := by
  have hinv := h.inv
  obtain ⟨e, lease, hdelivery⟩ := hinv.delivery hthread hhanded
  refine ⟨e, lease, hdelivery, fun id' thread' path' drawn' message' hne hthread' hhanded' hid => ?_⟩
  obtain ⟨tid, hsent, hc⟩ := hdelivery.committed
  have hapart : ∀ e' lease', s.Delivery thread' path' drawn' message' e' lease' →
      lease.receiptHandle ≠ lease'.receiptHandle ∧
        message'.deliveryAttempts ≠ message.deliveryAttempts ∧
        (lease.availableAfter ≤ e'.now ∨ lease'.availableAfter ≤ e.now) := by
    intro e' lease' hdelivery'
    obtain ⟨tid', hsent', hc'⟩ := hdelivery'.committed
    have htids : tid ≠ tid' := by
      rintro rfl
      exact hne (hinv.distinct id' id thread' thread tid hthread' hthread hsent' hsent)
    have hsame : lease.id = lease'.id := hdelivery.id.trans (hid.symm.trans hdelivery'.id.symm)
    have hids : e.response.delivered = some message.id := hdelivery.id ▸ hdelivery.leased.delivered
    have hids' : e'.response.delivered = some message.id :=
      hid ▸ hdelivery'.id ▸ hdelivery'.leased.delivered
    have hattempts : message'.deliveryAttempts ≠ message.deliveryAttempts := by
      rcases hinv.pairwise (Trace.of_log hinv.reachable).attempts_increase hc hc' htids with hlt | hlt
      · exact (hlt _ _ _ hids hids' hdelivery.attempts hdelivery'.attempts).ne'
      · exact (hlt _ _ _ hids' hids hdelivery'.attempts hdelivery.attempts).ne
    rcases hinv.pairwise (leases_successive hinv.reachable) hc hc' htids with hlater | hlater
    · obtain ⟨hended, hhandle⟩ := hlater lease lease' hdelivery.leased hdelivery'.leased hsame
      exact ⟨hhandle, hattempts, Or.inl hended⟩
    · obtain ⟨hended, hhandle⟩ := hlater lease' lease hdelivery'.leased hdelivery.leased hsame.symm
      exact ⟨hhandle.symm, hattempts, Or.inr hended⟩
  obtain ⟨e', lease', hdelivery'⟩ := hinv.delivery hthread' hhanded'
  obtain ⟨hhandles, hattempts, -⟩ := hapart e' lease' hdelivery'
  refine ⟨fun heq => ?_, hattempts, fun e' lease' hdelivery' time hboth => ?_⟩
  · rw [hdelivery.handle.2, hdelivery'.handle.2, ← hdelivery.handle.1, ← hdelivery'.handle.1,
      heq] at hhandles
    exact hhandles rfl
  · obtain ⟨⟨start, hstart, hfrom, huntil⟩, start', hstart', hfrom', huntil'⟩ := hboth
    rw [hdelivery.leased.deliveredAt] at hstart
    rw [hdelivery'.leased.deliveredAt] at hstart'
    obtain rfl := Option.some.inj hstart
    obtain rfl := Option.some.inj hstart'
    obtain ⟨-, -, hended | hended⟩ := hapart e' lease' hdelivery'
    · omega
    · omega

/-- A message is handed to one client, and when its lease has ended to another. -/
def twoClients : List ServiceAction :=
  [.spawn 1 (.request (.createQueue (.ok ⟨"orders", some 1, none, none⟩)) 1)] ++
    committed 1 1 [] 0 ++ [.reply 1] ++
    [.spawn 2 (.request (.enqueueMessage (.ok ⟨1⟩) (.ok ⟨"first", "HIGH", none⟩)) 7), .read 2 0] ++
    committed 2 2 [] 1 ++ [.reply 2] ++
    [.spawn 3 (.request (.dequeueMessage (.ok ⟨1⟩)) 100)] ++ committed 3 3 [.lease] 1 ++ [.reply 3] ++
    [.system (.tick 1000000)] ++
    [.spawn 4 (.request (.dequeueMessage (.ok ⟨1⟩)) 101)] ++ committed 4 4 [.lease] 0 ++ [.reply 4]

/-- What the client with this receipt handle has been handed. -/
def firstMessage (receiptHandle : Uuid) (deliveryAttempts : Nat) : DequeueMessageResponse :=
  ⟨7, "first", "HIGH", receiptHandle, deliveryAttempts⟩

/-- Both clients have been handed the message, one after the other. -/
theorem deliveries_are_exclusive_twoClients : ∃ (s : Service) (thread thread' : Thread),
    s.threads 3 = some thread ∧ thread.Handed ⟨1⟩ 100 (firstMessage 100 1) ∧
    s.threads 4 = some thread' ∧ thread'.Handed ⟨1⟩ 101 (firstMessage 101 2) ∧
    ∃ e lease, s.Delivery thread ⟨1⟩ 100 (firstMessage 100 1) e lease ∧
      ∀ e' lease', s.Delivery thread' ⟨1⟩ 101 (firstMessage 101 2) e' lease' →
        ∀ time, ¬(lease.LeasedAt time ∧ lease'.LeasedAt time) := by
  have hrun : ∀ thread ∈ [(3, 100, 1), (4, 101, 2)],
      (runAllowed (Service.step .deleteFirst) anyAction Service.initial twoClients).map
        (fun s => (s.threads thread.1).map (·.responded?)) =
          some (some (some (.dequeueMessage (.ok ⟨1⟩), thread.2.1,
            .json .ok (.dequeued (firstMessage thread.2.1 thread.2.2))))) := by
    decide +kernel
  obtain ⟨s, hs, hfirst⟩ := Option.map_eq_some_iff.mp (hrun (3, 100, 1) (by simp))
  have hsecond := hrun (4, 101, 2) (by simp)
  rw [hs, Option.map_some, Option.some.injEq] at hsecond
  obtain ⟨thread, hthread, hresponded⟩ := Option.map_eq_some_iff.mp hfirst
  obtain ⟨thread', hthread', hresponded'⟩ := Option.map_eq_some_iff.mp hsecond
  have hhanded : thread.Handed ⟨1⟩ 100 (firstMessage 100 1) := ⟨_, hresponded, rfl⟩
  have hhanded' : thread'.Handed ⟨1⟩ 101 (firstMessage 101 2) := ⟨_, hresponded', rfl⟩
  obtain ⟨e, lease, hdelivery, hothers⟩ :=
    deliveries_are_exclusive (execution_of_runAllowed hs) hthread hhanded
  exact ⟨s, thread, thread', hthread, hhanded, hthread', hhanded', e, lease, hdelivery,
    (hothers 4 thread' ⟨1⟩ 101 (firstMessage 101 2) (by decide) hthread' hhanded' rfl).2.2⟩

end Retsu
