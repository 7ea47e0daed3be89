/-
  The HTTP API: the requests with their extractors (`api/extractors.rs`), the handlers of the queue
  module (`modules/queue/api`) and the responses, problem details included (`api/error.rs`).

  A request is modelled from where its path and its body have been decoded, or not.  The extractors
  of a handler run in the order of its arguments, and the first that fails answers.
-/
import Retsu.UseCases

namespace Retsu

open Concurrency UseCases

namespace Api

/-! ## Responses -/

inductive StatusCode
  | ok
  | created
  | noContent
  | badRequest
  | notFound
  | conflict
  | payloadTooLarge
  | unsupportedMediaType
  | internalServerError
deriving DecidableEq, Repr

def StatusCode.asU16 : StatusCode → Nat
  | ok => 200
  | created => 201
  | noContent => 204
  | badRequest => 400
  | notFound => 404
  | conflict => 409
  | payloadTooLarge => 413
  | unsupportedMediaType => 415
  | internalServerError => 500

def StatusCode.canonicalReason : StatusCode → Option String
  | ok => some "OK"
  | created => some "Created"
  | noContent => some "No Content"
  | badRequest => some "Bad Request"
  | notFound => some "Not Found"
  | conflict => some "Conflict"
  | payloadTooLarge => some "Payload Too Large"
  | unsupportedMediaType => some "Unsupported Media Type"
  | internalServerError => some "Internal Server Error"

structure QueueResponse where
  id : Uuid
  name : String
  visibilityTimeoutSeconds : UInt32
  maxDeliveryAttempts : UInt16
  defaultMessageTtlSeconds : UInt32
deriving DecidableEq, Repr

/-- `impl From<QueueDetails> for QueueResponse`. -/
def QueueResponse.ofDetails (queue : QueueDetails) : QueueResponse where
  id := queue.id
  name := queue.name
  visibilityTimeoutSeconds := queue.visibilityTimeoutSeconds
  maxDeliveryAttempts := queue.maxDeliveryAttempts
  defaultMessageTtlSeconds := queue.defaultMessageTtlSeconds

structure EnqueueMessageResponse where
  id : Uuid
deriving DecidableEq, Repr

structure DequeueMessageResponse where
  id : Uuid
  payload : String
  priority : String
  receiptHandle : Uuid
  deliveryAttempts : Nat
deriving DecidableEq, Repr

/-- `impl From<DequeuedMessage> for DequeueMessageResponse`. -/
def DequeueMessageResponse.ofMessage (message : DequeuedMessage) : DequeueMessageResponse where
  id := message.id
  payload := message.payload
  priority := message.priority.asStr
  receiptHandle := message.receiptHandle
  deliveryAttempts := message.deliveryAttempts

structure ProblemDetails where
  kind : String
  title : String
  status : Nat
  detail : String
  code : String
deriving DecidableEq, Repr

inductive Body
  | none
  | queue (queue : QueueResponse)
  | enqueued (message : EnqueueMessageResponse)
  | dequeued (message : DequeueMessageResponse)
  | problem (details : ProblemDetails)
deriving DecidableEq, Repr

structure HttpResponse where
  status : StatusCode
  headers : List (String × String)
  body : Body
deriving DecidableEq, Repr

/-- `HttpResponse::build(status).json(body)`. -/
def HttpResponse.json (status : StatusCode) (body : Body) : HttpResponse :=
  ⟨status, [("content-type", "application/json")], body⟩

/-- `HttpResponse::NoContent().finish()`. -/
def HttpResponse.noContent : HttpResponse := ⟨.noContent, [], .none⟩

/-! ## Errors -/

/-- What an internal error came from; it is logged and no response has it. -/
inductive ErrorSource
  | persistence (error : MetadataError)
  | serialize (text : String)
  | unhandledJson (text : String)
deriving DecidableEq, Repr

structure ApiError where
  status : StatusCode
  code : String
  detail : String
  source : Option ErrorSource
deriving DecidableEq, Repr

namespace ApiError

def new (status : StatusCode) (code detail : String) : ApiError := ⟨status, code, detail, none⟩

def badRequest (code detail : String) : ApiError := new .badRequest code detail

def payloadTooLarge : ApiError :=
  new .payloadTooLarge "payload_too_large" "the request body exceeds the allowed size"

def unsupportedMediaType : ApiError :=
  new .unsupportedMediaType "unsupported_media_type" "the request content type must be JSON"

def notFound : ApiError := new .notFound "route_not_found" "the requested route was not found"

def internal (source : ErrorSource) : ApiError :=
  ⟨.internalServerError, "internal_error", "an unexpected error occurred", some source⟩

def conflict (code detail : String) : ApiError := new .conflict code detail

def resourceNotFound (code detail : String) : ApiError := new .notFound code detail

def problemDetails (error : ApiError) : ProblemDetails where
  kind := "about:blank"
  title := error.status.canonicalReason.getD "Error"
  status := error.status.asU16
  detail := error.detail
  code := error.code

/-- `json` leaves a content type alone that has been set. -/
def errorResponse (error : ApiError) : HttpResponse where
  status := error.status
  headers := [("content-type", "application/problem+json"), ("cache-control", "no-store")]
  body := .problem error.problemDetails

end ApiError

/-! ## Extractors -/

inductive JsonPayloadError
  | overflowKnownLength
  | overflow
  | contentType
  | deserialize
  | payload
  | serialize (text : String)
  /-- A variant that the code does not know. -/
  | other (text : String)
deriving DecidableEq, Repr

inductive PathError
  | deserialize
deriving DecidableEq, Repr

def jsonError : JsonPayloadError → ApiError
  | .overflowKnownLength | .overflow => .payloadTooLarge
  | .contentType => .unsupportedMediaType
  | .deserialize | .payload =>
    .badRequest "invalid_json" "the request body contains invalid JSON"
  | .serialize text => .internal (.serialize text)
  | .other text => .internal (.unhandledJson text)

def pathError (_ : PathError) : ApiError :=
  .badRequest "invalid_path" "the request path contains an invalid value"

/-! ## Requests -/

structure CreateQueueRequest where
  name : String
  visibilityTimeoutSeconds : Option UInt32
  maxDeliveryAttempts : Option UInt16
  defaultMessageTtlSeconds : Option UInt32
deriving DecidableEq, Repr

def CreateQueueRequest.intoCommand (request : CreateQueueRequest) : CreateQueueCommand :=
  ⟨request.name, request.visibilityTimeoutSeconds, request.maxDeliveryAttempts,
    request.defaultMessageTtlSeconds⟩

structure UpdateQueueRequest where
  visibilityTimeoutSeconds : Option UInt32
  maxDeliveryAttempts : Option UInt16
  defaultMessageTtlSeconds : Option UInt32
deriving DecidableEq, Repr

def UpdateQueueRequest.intoCommand (request : UpdateQueueRequest) (queueId : Uuid) :
    UpdateQueueCommand :=
  ⟨queueId, request.visibilityTimeoutSeconds, request.maxDeliveryAttempts,
    request.defaultMessageTtlSeconds⟩

structure QueuePath where
  queueId : Uuid
deriving DecidableEq, Repr

structure EnqueueMessageRequest where
  payload : String
  priority : String
  ttlSeconds : Option UInt32
deriving DecidableEq, Repr

def EnqueueMessageRequest.intoCommand (request : EnqueueMessageRequest) (queueId : Uuid) :
    EnqueueMessageCommand :=
  ⟨queueId, request.payload, request.priority, request.ttlSeconds⟩

structure MessagePath where
  queueId : Uuid
  messageId : Uuid
deriving DecidableEq, Repr

structure AcknowledgeMessageRequest where
  receiptHandle : Uuid
deriving DecidableEq, Repr

def AcknowledgeMessageRequest.intoCommand (request : AcknowledgeMessageRequest)
    (path : MessagePath) : AcknowledgeMessageCommand :=
  ⟨path.queueId, path.messageId, request.receiptHandle⟩

/-! ## Handlers -/

def mapQueueSettingsError (error : QueueSettingsError) : ApiError :=
  match error with
  | .invalidVisibilityTimeout => .badRequest "invalid_visibility_timeout" error.message
  | .invalidMaxDeliveryAttempts => .badRequest "invalid_max_delivery_attempts" error.message
  | .invalidDefaultMessageTtl => .badRequest "invalid_default_message_ttl" error.message

def queueNotFound : ApiError :=
  .resourceNotFound "queue_not_found" "the requested queue does not exist"

def mapCreateQueueError : CreateQueueError → ApiError
  | .invalidName error => .badRequest "invalid_queue_name" error.message
  | .invalidSettings error => mapQueueSettingsError error
  | .alreadyExists => .conflict "queue_already_exists" "a queue with this name already exists"
  | .persistence error => .internal (.persistence error)

def mapUpdateQueueError : UpdateQueueError → ApiError
  | .noConfigurationChanges =>
    .badRequest "empty_queue_update" "at least one queue configuration field must be provided"
  | .invalidSettings error => mapQueueSettingsError error
  | .queueNotFound => queueNotFound
  | .persistence error => .internal (.persistence error)

def mapEnqueueMessageError : UseCases.EnqueueMessageError → ApiError
  | .invalidMessage .invalidPriority =>
    .badRequest "invalid_priority" MessageValidationError.invalidPriority.message
  | .invalidMessage .invalidTtl =>
    .badRequest "invalid_ttl" MessageValidationError.invalidTtl.message
  | .queueNotFound => queueNotFound
  | .persistence error => .internal (.persistence error)

def mapDequeueMessageError : UseCases.DequeueMessageError → ApiError
  | .queueNotFound => queueNotFound
  | .persistence error => .internal (.persistence error)

def mapAcknowledgeMessageError : AcknowledgeMessageError → ApiError
  | .queueNotFound => queueNotFound
  | .persistence error => .internal (.persistence error)

/-- `module.….await.map_err(mapError)?`, and the response to what it gives. -/
def respondWith {ε α : Type} (module : Instrumented ε α) (mapError : ε → ApiError)
    (response : α → HttpResponse) : Awaiting (Except ApiError HttpResponse × List Measurement) := do
  let (result, recorded) ← module
  return ((result.map response).mapError mapError, recorded)

def createQueue (id : Uuid) (request : CreateQueueRequest) : Instrumented ApiError HttpResponse :=
  respondWith (QueueModule.createQueue id request.intoCommand) mapCreateQueueError
    fun queue => .json .created (.queue (.ofDetails queue))

def updateQueue (path : QueuePath) (request : UpdateQueueRequest) :
    Instrumented ApiError HttpResponse :=
  respondWith (QueueModule.updateQueue (request.intoCommand path.queueId)) mapUpdateQueueError
    fun queue => .json .ok (.queue (.ofDetails queue))

def enqueueMessage (id : Uuid) (path : QueuePath) (request : EnqueueMessageRequest) :
    Instrumented ApiError HttpResponse :=
  respondWith (QueueModule.enqueueMessage id (request.intoCommand path.queueId))
    mapEnqueueMessageError fun message => .json .created (.enqueued ⟨message.id⟩)

def dequeueMessage (receiptHandle : Uuid) (path : QueuePath) :
    Instrumented ApiError HttpResponse :=
  respondWith (QueueModule.dequeueMessage receiptHandle ⟨path.queueId⟩) mapDequeueMessageError
    fun message => message.elim .noContent fun message =>
      .json .ok (.dequeued (.ofMessage message))

def acknowledgeMessage (path : MessagePath) (request : AcknowledgeMessageRequest) :
    Instrumented ApiError HttpResponse :=
  respondWith (QueueModule.acknowledgeMessage (request.intoCommand path))
    mapAcknowledgeMessageError fun _ => .noContent

/-! ## Routes -/

/-- A request that has been routed, with what its extractors make of it. -/
inductive Request
  | createQueue (body : Except JsonPayloadError CreateQueueRequest)
  | updateQueue (path : Except PathError QueuePath)
      (body : Except JsonPayloadError UpdateQueueRequest)
  | enqueueMessage (path : Except PathError QueuePath)
      (body : Except JsonPayloadError EnqueueMessageRequest)
  | dequeueMessage (path : Except PathError QueuePath)
  | acknowledgeMessage (path : Except PathError MessagePath)
      (body : Except JsonPayloadError AcknowledgeMessageRequest)
  /-- No route matches. -/
  | unknown
deriving DecidableEq

/-- The handler with its extracted arguments, or the error of the first extractor that fails.
    `drawn` is the identifier that the handler is going to draw. -/
def Request.handler (drawn : Uuid) : Request →
    Except ApiError (Instrumented ApiError HttpResponse)
  | createQueue body => do
    let body ← body.mapError jsonError
    return Api.createQueue drawn body
  | updateQueue path body => do
    let path ← path.mapError pathError
    let body ← body.mapError jsonError
    return Api.updateQueue path body
  | enqueueMessage path body => do
    let path ← path.mapError pathError
    let body ← body.mapError jsonError
    return Api.enqueueMessage drawn path body
  | dequeueMessage path => do
    let path ← path.mapError pathError
    return Api.dequeueMessage drawn path
  | acknowledgeMessage path body => do
    let path ← path.mapError pathError
    let body ← body.mapError jsonError
    return Api.acknowledgeMessage path body
  | unknown => .error .notFound

def toResponse : Except ApiError HttpResponse → HttpResponse
  | .ok response => response
  | .error error => error.errorResponse

/-- The request as a whole: its response, and what has been recorded on the way. -/
def Request.serve (drawn : Uuid) (request : Request) : Awaiting (HttpResponse × List Measurement) :=
  match request.handler drawn with
  | .error error => return (error.errorResponse, [])
  | .ok program => do
    let (result, recorded) ← program
    return (toResponse result, recorded)

end Api

end Retsu
