/-
SubmitPhoneView.post as one sequential program: what it reads from the request,
the tasks it publishes, the answers it can give, and the order of its external
calls. The cache is a parameter; each external call may return or raise.
-/

import Bistland.PhoneSerializer

namespace Bistland

open Python

/-- Time is counted in microseconds, the resolution of the clocks the code reads. -/
def second : Nat := 1000000

def day : Nat := 24 * 3600 * second

/-! ### The request -/

/-- The entries of `request.META` that the code reads. -/
structure Meta where
  httpXForwardedFor : Option Str
  remoteAddr : Option Str
  httpUserAgent : Option Str
  deriving DecidableEq

/-- `data` is the parsed body, or the detail of the parser's error, which
`request.data` raises where it is read. -/
structure Request where
  META : Meta
  path : Str
  data : Except Str Json

def comma : CodePoint := 0x2C

/-- `xff.split(",")[0].strip()` when the header is there and not empty. -/
def getClientIp (request : Request) : Option Str :=
  match request.META.httpXForwardedFor with
  | none => request.META.remoteAddr
  | some xff =>
      if xff = [] then request.META.remoteAddr else some (strip (Text.firstField comma xff))

/-- `get_client_ip(request) or "unknown"`. -/
def Request.ip (request : Request) : Str :=
  match getClientIp request with
  | none => text "unknown"
  | some ip => if ip = [] then text "unknown" else ip

/-! ### Tasks, failures and answers -/

/-- The argument of `log_request_in_mongo_task`. -/
structure LogMeta where
  phone : ValidatedPhone
  path : Str
  ip : Str
  ua : Str
  duplicate : Bool
  deriving DecidableEq

inductive Task where
  | savePhoneInSqlTask (phone : ValidatedPhone)
  | logRequestInMongoTask (record : LogMeta)
  deriving DecidableEq

namespace Task

def isSave : Task → Bool
  | .savePhoneInSqlTask _ => true
  | .logRequestInMongoTask _ => false

def isSaveFor (phone : ValidatedPhone) : Task → Bool
  | .savePhoneInSqlTask saved => saved = phone
  | .logRequestInMongoTask _ => false

def isLogFor (phone : ValidatedPhone) (duplicate : Bool) : Task → Bool
  | .savePhoneInSqlTask _ => false
  | .logRequestInMongoTask record => record.phone = phone && record.duplicate = duplicate

theorem isSaveFor_iff (phone : ValidatedPhone) (task : Task) :
    task.isSaveFor phone = true ↔ task = .savePhoneInSqlTask phone := by
  cases task <;> simp [isSaveFor]

end Task

/-- The exceptions that reach the handler of `post`, by the call that raised them. -/
inductive Failure where
  | parse (detail : Str)
  | validation (errors : List FieldError)
  | cacheAdd (detail : Str)
  | logDelay (detail : Str)
  | saveDelay (detail : Str)
  deriving DecidableEq

/-- The three `Response(...)` expressions of `post`. -/
inductive Response where
  | duplicate
  | queued
  | error (failure : Failure)
  deriving DecidableEq

namespace Response

def status : Response → Nat
  | .duplicate => 200
  | .queued => 200
  | .error _ => 500

/-- The boolean members of the body; the body of an error has its text only. -/
def members : Response → List (String × Bool)
  | .duplicate => [("ok", true), ("duplicate", true)]
  | .queued => [("ok", true), ("queued", true), ("duplicate", false)]
  | .error _ => []

def shows (response : Response) (name : String) : Bool :=
  response.members.contains (name, true)

theorem status_ok (response : Response) :
    response.status = 200 ↔ response = .duplicate ∨ response = .queued := by
  cases response <;> simp [status]

theorem status_error (response : Response) :
    response.status = 500 ↔ ∃ failure, response = .error failure := by
  cases response <;> simp [status]

end Response

/-! ### The steps of the handler -/

/-- `serializer.is_valid(raise_exception=True)` on `request.data`. -/
def Request.validated (request : Request) : Except Failure ValidatedPhone :=
  match request.data with
  | .error detail => .error (.parse detail)
  | .ok data =>
      match SubmitPhoneSerializer.run data with
      | .error errors => .error (.validation errors)
      | .ok phone => .ok phone

def dedupKey (phone : Str) : Str :=
  text "dedup:phone:" ++ phone

def dedupValue : Str := text "1"

def Request.log (request : Request) (phone : ValidatedPhone) (isNewSubmission : Bool) : Task :=
  .logRequestInMongoTask
    { phone := phone
      path := request.path
      ip := request.ip
      ua := request.META.httpUserAgent.getD []
      duplicate := !isNewSubmission }

/-- `endpoint_requests` by its label and the observations of `endpoint_latency`. -/
structure Metrics where
  success : Nat
  error : Nat
  latency : List Nat
  deriving DecidableEq

def Metrics.zero : Metrics :=
  { success := 0
    error := 0
    latency := [] }

/-- The counter of the branch that answers; the duplicate branch has none. -/
def Metrics.count (metrics : Metrics) : Response → Metrics
  | .duplicate => metrics
  | .queued => { metrics with success := metrics.success + 1 }
  | .error _ => { metrics with error := metrics.error + 1 }

/-- The `finally` block. -/
def Metrics.observe (metrics : Metrics) (duration : Nat) : Metrics :=
  { metrics with latency := metrics.latency ++ [duration] }

theorem dedupKey_injective : Function.Injective dedupKey := by
  intro left right same
  exact List.append_cancel_left same

theorem dedupKey_value_injective :
    Function.Injective (fun phone : ValidatedPhone => dedupKey phone.value) := by
  intro left right same
  have values := dedupKey_injective same
  cases left
  cases right
  cases values
  rfl

def examplePhone : ValidatedPhone :=
  { value := text "+989121234567"
    spelled := ⟨text "121234567", by decide, by decide,
      List.all_eq_true.mp (show (text "121234567").all isDecimal = true by decide)⟩ }

def exampleRequest : Request :=
  { META :=
      { httpXForwardedFor := none
        remoteAddr := some (text "10.0.0.1")
        httpUserAgent := none }
    path := text "/api/submit"
    data := .ok (.object [(text "phone", .string (text "+989121234567"))]) }

/-! ### The sequential program -/

/-- How the surroundings answer one external call. -/
inductive Reply where
  | returns
  | raises (detail : Str)
  deriving DecidableEq

structure Replies where
  cacheAdd : Reply
  logDelay : Reply
  saveDelay : Reply

def Replies.allReturn : Replies :=
  { cacheAdd := .returns
    logDelay := .returns
    saveDelay := .returns }

/-- `cache.add(key, value, timeout)` of a cache with the given state at a time. -/
structure CacheBackend (Cache : Type) where
  add : Cache → Nat → Str → Str → Nat → Bool × Cache

structure World (Cache : Type) where
  now : Nat
  cache : Cache
  published : List Task
  metrics : Metrics

abbrev Handler (Cache : Type) := ExceptT Failure (StateM (World Cache))

section Program

variable {Cache : Type}

def external {Result : Type} (reply : Reply) (failure : Str → Failure)
    (effect : Handler Cache Result) : Handler Cache Result :=
  match reply with
  | .returns => effect
  | .raises detail => throw (failure detail)

def cacheAdd (backend : CacheBackend Cache) (key value : Str) (timeout : Nat) :
    Handler Cache Bool := do
  let world ← get
  let (stored, cache) := backend.add world.cache world.now key value timeout
  set { world with cache := cache }
  return stored

def delay (task : Task) : Handler Cache Unit :=
  modify (fun world => { world with published := world.published ++ [task] })

/-- The `try` block. -/
def process (backend : CacheBackend Cache) (replies : Replies) (request : Request) :
    Handler Cache Response := do
  let phone ← (request.validated : Except Failure ValidatedPhone)
  let isNewSubmission ← external replies.cacheAdd .cacheAdd
    (cacheAdd backend (dedupKey phone.value) dedupValue day)
  external replies.logDelay .logDelay (delay (request.log phone isNewSubmission))
  if !isNewSubmission then
    return .duplicate
  external replies.saveDelay .saveDelay (delay (.savePhoneInSqlTask phone))
  return .queued

def post (backend : CacheBackend Cache) (replies : Replies) (request : Request) :
    StateM (World Cache) Response := do
  let startTime := (← get).now
  let response ←
    match ← (process backend replies request).run with
    | .ok response => pure response
    | .error failure => pure (.error failure)
  modify (fun world =>
    { world with metrics := (world.metrics.count response).observe (world.now - startTime) })
  return response

end Program

end Bistland
